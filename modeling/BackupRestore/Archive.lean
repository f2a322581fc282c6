/-
Module: BackupRestore.Archive
Purpose: Open archives: scanning their entries, and reading one of them.
Main exports: Zip.Codecs, Pattern, Located, Archive, Archive.openOn, Archive.find,
  Archive.readEntry, locate, contains
-/
import BackupRestore.Deflate.Inflater
import BackupRestore.Medium
import BackupRestore.Zip.Directory

namespace BackupRestore

/-!
A lookup opens a handle of its own, reads the directory and visits the entries
in their order up to the first one that matches.  An entry is visited by reading
the header in front of its data; a scan does not step over an entry that cannot
be visited, whether it matches or not.

Data that is stored or deflated is decoded here.  Entries may be compressed by other
methods too, and for those that are read whole the decoders are taken as given
(`Zip.Codecs`).
-/

namespace Zip

/-- The decoders of the methods that are not decoded here.  They are told the method of an
entry and the size that the directory records for its bytes, and given all its data. -/
class Codecs where
  decode : Method → (size : Nat) → (data : List UInt8) → Except RestoreError (List UInt8)

/-- No other method can be decoded.  This is so unless decoders are given. -/
instance Codecs.none : Codecs where
  decode _ _ _ := .error (.archive .unsupportedArchive)

end Zip

/-- What an entry name is compared with. -/
inductive Pattern where
  /-- The name begins with this text. -/
  | under (beginning : String)
  /-- The name is this text. -/
  | exactly (path : String)
deriving Repr, Inhabited, DecidableEq

/-- The name fits the pattern. -/
def Pattern.matches (p : Pattern) (name : String) : Bool :=
  match p with
  | under beginning => beginning.toList.isPrefixOf name.toList
  | exactly path => name == path

/-- An entry that a scan has found. -/
structure Located where
  index : Nat
  name : String
deriving Repr, Inhabited, DecidableEq

/-- A directory that has been read, and the handle through which it was. -/
structure Archive where
  directory : Zip.Directory
  handle : Handle

namespace Archive

/-- How many entries there are. -/
def size (a : Archive) : Nat := a.directory.entries.size

/-- Open a handle and read the directory.  The handle is given back if that
fails. -/
def openOn (m : Medium) : Except RestoreError Archive × Medium :=
  match m.openHandle with
  | (.error cause, m) => (.error (.io cause), m)
  | (.ok handle, m) =>
      match m.load handle with
      | (.error cause, m) => (.error (.archive (.io cause)), m.release)
      | (.ok content, m) =>
          match Zip.Directory.read content with
          | .error cause => (.error (.archive cause), m.release)
          | .ok directory => (.ok { directory, handle }, m)

/-- Visit an entry.  Gives a handle at the place where its data begins. -/
def visit (a : Archive) (m : Medium) (e : Zip.Entry) : Except ArchiveError Handle × Medium :=
  match m.seek a.handle e.headerStart with
  | .error cause => (.error (.io cause), m)
  | .ok handle =>
      match m.fill handle Zip.localHeaderLength with
      | (_, some cause, _, m) => (.error (.io cause), m)
      | (header, none, _, m) =>
          if header.length = Zip.localHeaderLength ∧ fieldAt header 0 4 = Zip.localSignature then
            let start := e.headerStart + Zip.localHeaderLength + Zip.localTail header
            ((m.seek handle start).mapError .io, m)
          else (.error .invalidArchive, m)

/-- Visit up to `count` entries from `index` on, until one matches. -/
def scan (a : Archive) (pattern : Pattern) :
    (count index : Nat) → Medium → Except RestoreError (Option Located) × Medium
  | 0, _, m => (.ok none, m)
  | count + 1, index, m =>
      match a.directory.entries[index]? with
      | none => (.ok none, m)
      | some e =>
          match a.visit m e with
          | (.error cause, m) => (.error (.archive cause), m)
          | (.ok _, m) =>
              if !e.isDirectory && pattern.matches e.name then
                (.ok (some { index, name := e.name }), m)
              else scan a pattern count (index + 1) m

/-- The first entry from `start` on that matches and is no directory. -/
def find (a : Archive) (m : Medium) (start : Nat) (pattern : Pattern) :
    Except RestoreError (Option Located) × Medium :=
  a.scan pattern (a.size - start) start m

/-- The bytes for which data stands that is stored or deflated. -/
def decode (method : Zip.Method) (data : List UInt8) : Except IoError (List UInt8) :=
  if method = .stored then .ok data else Deflate.inflate data

variable [Zip.Codecs]

/-- The bytes for which data stands, in whatever way it is written. -/
def decodeWhole (method : Zip.Method) (size : Nat) (data : List UInt8) :
    Except RestoreError (List UInt8) :=
  if method.isSupported then (decode method data).mapError .io
  else Zip.Codecs.decode method size data

/-- Read an entry's data through a handle at its beginning, and check it. -/
def readData (m : Medium) (e : Zip.Entry) (handle : Handle) :
    Except RestoreError (List UInt8) × Medium :=
  match m.fill handle e.compressedSize with
  | (_, some cause, _, m) => (.error (.io cause), m)
  | (data, none, _, m) =>
      match decodeWhole e.method e.uncompressedSize data with
      | .error cause => (.error cause, m)
      | .ok bytes =>
          if crc32 bytes = e.checksum then (.ok bytes, m) else (.error (.io .wrongChecksum), m)

/-- Read an entry whole. -/
def readEntry (a : Archive) (m : Medium) (index : Nat) :
    Except RestoreError (List UInt8) × Medium :=
  match a.directory.entries[index]? with
  | none => (.error (.archive .fileNotFound), m)
  | some e =>
      if e.isEncrypted then (.error (.archive .unsupportedArchive), m)
      else
        match a.visit m e with
        | (.error cause, m) => (.error (.archive cause), m)
        | (.ok handle, m) =>
            if e.method.name?.isNone then (.error (.archive .unsupportedArchive), m)
            else if e.hasCipherNote then (.error (.archive .invalidPassword), m)
            else readData m e handle

end Archive

/-- Open the archive and find the first entry that matches.  The handle stays
open if there is one, and is given back otherwise. -/
def locate (m : Medium) (pattern : Pattern) :
    Except RestoreError (Option (Archive × Located)) × Medium :=
  match Archive.openOn m with
  | (.error e, m) => (.error e, m)
  | (.ok a, m) =>
      match a.find m 0 pattern with
      | (.error e, m) => (.error e, m.release)
      | (.ok none, m) => (.ok none, m.release)
      | (.ok (some found), m) => (.ok (some (a, found)), m)

/-- Some entry matches. -/
def contains (m : Medium) (pattern : Pattern) : Except RestoreError Bool × Medium :=
  match locate m pattern with
  | (.error e, m) => (.error e, m)
  | (.ok none, m) => (.ok false, m)
  | (.ok (some _), m) => (.ok true, m.release)

end BackupRestore
