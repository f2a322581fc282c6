/-
Module: BackupRestore.Zip.Entry
Purpose: The entries of a zip directory.
Main exports: Method, Method.name, Entry, Entry.isDirectory, Entry.ofParts, Entry.read
-/
import BackupRestore.Bytes.Checksum
import BackupRestore.Bytes.Words
import BackupRestore.Error
import BackupRestore.Text.CodePage
import BackupRestore.Text.Utf8

namespace BackupRestore.Zip

/-- A compression method, by its number. -/
structure Method where
  number : Nat
deriving Repr, Inhabited, DecidableEq

namespace Method

/-- The bytes are written as they are. -/
def stored : Method := ⟨0⟩

/-- The bytes are written as blocks of items. -/
def deflated : Method := ⟨8⟩

/-- The number that stands for encrypted data, whose method is noted elsewhere. -/
def encrypted : Method := ⟨99⟩

/-- Data that is written by the method can be read piece by piece. -/
def isSupported (m : Method) : Bool := m == stored || m == deflated

/-- The name of the method, if it is one of those that have one. -/
def name? (m : Method) : Option String :=
  match m.number with
  | 0 => some "Stored"
  | 8 => some "Deflated"
  | 9 => some "Deflate64"
  | 12 => some "Bzip2"
  | 14 => some "Lzma"
  | 93 => some "Zstd"
  | 95 => some "Xz"
  | 98 => some "Ppmd"
  | 99 => some "Aes"
  | _ => none

/-- The name under which the method is reported. -/
def name (m : Method) : String :=
  m.name?.getD ("Unsupported(" ++ toString m.number ++ ")")

end Method

/-- One entry of the directory. -/
structure Entry where
  name : String
  /-- The data cannot be read without a password. -/
  isEncrypted : Bool
  method : Method
  checksum : UInt32
  compressedSize : Nat
  uncompressedSize : Nat
  /-- Where in the archive the entry's own header begins. -/
  headerStart : Nat
  /-- The directory notes how the data is encrypted. -/
  hasCipherNote : Bool
deriving Repr, Inhabited, DecidableEq

namespace Entry

/-- A name that ends like this stands for a directory. -/
def isDirectory (e : Entry) : Bool :=
  match e.name.toList.getLast? with
  | some c => c == '/' || c == '\\'
  | none => false

end Entry

/-!
The directory describes an entry by a block of fixed length, the name, extra
fields and a comment.  Extra fields may replace sizes and place that do not fit
into the block, the name, the comment, or the method; others give times.  A field
is read up to the first thing in it that cannot be right, so what is missing behind
that does not count.
-/

/-- The length of the fixed block. -/
def entryBlockLength : Nat := 46

/-- The number with which the fixed block begins. -/
def entrySignature : Nat := 0x02014B50

/-- The value of a field of four bytes that is too small for its number. -/
def overflowMark : Nat := 0xFFFFFFFF

/-- What is known of an entry while its extra fields are read. -/
structure Draft where
  rawName : List UInt8
  name : String
  comment : String
  method : Method
  compressedSize : Nat
  uncompressedSize : Nat
  headerStart : Nat
  hasCipherNote : Bool := false
deriving Repr, Inhabited, DecidableEq

/-- Take a number of eight bytes off the beginning. -/
def takeLong? (bytes : List UInt8) : Option (Nat × List UInt8) :=
  if bytes.length < 8 then none else some (ofLittleEndian (bytes.take 8), bytes.drop 8)

/-- Replace a number from the extra field if it is marked.  Gives the number, what
is left and how many bytes were used. -/
def replaceLong (always : Bool) (value : Nat) (bytes : List UInt8) :
    Except ArchiveError (Nat × List UInt8 × Nat) :=
  if always || value == overflowMark then
    match takeLong? bytes with
    | some (long, rest) => .ok (long, rest, 8)
    | none => .error .invalidArchive
  else .ok (value, bytes, 0)

/-- The extra field with sizes and place in eight bytes each. -/
def applySizes (d : Draft) (length : Nat) (bytes : List UInt8) : Except ArchiveError Draft := do
  let all := 24 ≤ length
  let (uncompressedSize, bytes, used₁) ← replaceLong all d.uncompressedSize bytes
  let (compressedSize, bytes, used₂) ← replaceLong all d.compressedSize bytes
  let (headerStart, _, used₃) ← replaceLong all d.headerStart bytes
  if length < used₁ + used₂ + used₃ then .error .invalidArchive
  else .ok { d with uncompressedSize, compressedSize, headerStart }

/-- The data ends where more of a field should be. -/
def missingBytes : ArchiveError := .io .cutShort

/-- A field in which a text stands in UTF-8, beside a checksum of the text that it
replaces. -/
structure ReplacedText where
  checksum : Nat
  bytes : List UInt8

/-- Read such a field: a version, the checksum, and the text. -/
def ReplacedText.read (length : Nat) (bytes : List UInt8) : Except ArchiveError ReplacedText :=
  if bytes.length < 5 then .error missingBytes
  else if length < 5 then .error .invalidArchive
  else if bytes.length < length then .error missingBytes
  else .ok { checksum := fieldAt bytes 1 4, bytes := (bytes.take length).drop 5 }

/-- The text, if it is meant to replace `old`. -/
def ReplacedText.textFor (r : ReplacedText) (old : List UInt8) : Except ArchiveError String :=
  if r.checksum ≠ (crc32 old).toNat then .error .invalidArchive
  else
    match Text.decodeUtf8? r.bytes with
    | none => .error .invalidArchive
    | some text => .ok text

/-- The extra field with the name in UTF-8. -/
def applyName (d : Draft) (length : Nat) (bytes : List UInt8) : Except ArchiveError Draft := do
  let replaced ← ReplacedText.read length bytes
  let name ← replaced.textFor d.rawName
  return { d with rawName := replaced.bytes, name }

/-- The extra field with the comment in UTF-8. -/
def applyComment (d : Draft) (length : Nat) (bytes : List UInt8) : Except ArchiveError Draft := do
  let replaced ← ReplacedText.read length bytes
  let comment ← replaced.textFor (Text.utf8Bytes d.comment)
  return { d with comment }

/-- The extra field that notes how the data is encrypted. -/
def applyCipher (d : Draft) (length : Nat) (bytes : List UInt8) : Except ArchiveError Draft :=
  if length ≠ 7 then .error .unsupportedArchive
  else if bytes.length = 4 then .error .invalidArchive
  else if bytes.length < 7 then .error missingBytes
  else
    let version := fieldAt bytes 0 2
    let vendor := fieldAt bytes 2 2
    let strength := fieldAt bytes 4 1
    if vendor ≠ 0x4541 then .error .invalidArchive
    else if version ≠ 1 ∧ version ≠ 2 then .error .invalidArchive
    else if strength < 1 ∨ 3 < strength then .error .invalidArchive
    else .ok { d with method := ⟨fieldAt bytes 5 2⟩, hasCipherNote := true }

/-- How many bits of a byte are set. -/
def bitCount (b : UInt8) : Nat := ((List.range 8).filter b.toNat.testBit).length

/-- The extra field with times of four bytes each: a byte whose bits tell which times
there are, and the times.  With room for one time, it may announce any. -/
def checkTimes (length : Nat) (bytes : List UInt8) : Except ArchiveError Unit :=
  if length = 0 then .error .invalidArchive
  else
    match bytes with
    | [] => .error missingBytes
    | announced :: _ =>
        if length ≠ 5 ∧ length ≠ 1 + 4 * bitCount announced then .error (.io .timesMismatch)
        else if bytes.length < length then .error missingBytes
        else .ok ()

/-- The extra field with three times of eight bytes each, behind four bytes that mean
nothing, a number for what follows, and its length. -/
def checkLongTimes (length : Nat) (bytes : List UInt8) : Except ArchiveError Unit :=
  if length ≠ 32 then .error .unsupportedArchive
  else if bytes.length < 6 then .error missingBytes
  else if fieldAt bytes 4 2 ≠ 1 then .error .unsupportedArchive
  else if bytes.length < 8 then .error missingBytes
  else if fieldAt bytes 6 2 ≠ 24 then .error .unsupportedArchive
  else if bytes.length < 32 then .error missingBytes
  else .ok ()

/-- One extra field, whose content begins `bytes`. -/
def applyField (d : Draft) (kind length : Nat) (bytes : List UInt8) :
    Except ArchiveError Draft :=
  match kind with
  | 0x0001 => applySizes d length bytes
  | 0x000A => (fun _ => d) <$> checkLongTimes length bytes
  | 0x5455 => (fun _ => d) <$> checkTimes length bytes
  | 0x6375 => applyComment d length bytes
  | 0x7075 => applyName d length bytes
  | 0x9901 => applyCipher d length bytes
  | _ => .ok d

/-- All extra fields.  A single byte at the end is left alone. -/
def applyFields (d : Draft) (bytes : List UInt8) : Except ArchiveError Draft :=
  match bytes with
  | [] => .ok d
  | [_] => .ok d
  | k₀ :: k₁ :: l₀ :: l₁ :: content => do
      let kind := ofLittleEndian [k₀, k₁]
      let length := ofLittleEndian [l₀, l₁]
      let d ← applyField d kind length content
      if content.length < length then .error .invalidArchive
      else applyFields d (content.drop length)
  | _ => .error .invalidArchive
termination_by bytes.length
decreasing_by simp only [List.length_drop, List.length_cons]; omega

/-- Numbers in the archive are below this bound. -/
def longBound : Nat := 0x10000000000000000

/-- The entry that a fixed block, a name, extra fields and a comment describe. -/
def Entry.ofParts (block rawName extra comment : List UInt8) (archiveOffset : Nat) :
    Except ArchiveError Entry := do
  let flags := fieldAt block 8 2
  let decode := if flags.testBit 11 then Text.decodeUtf8Lossy else Text.decodeCodePage437
  let draft ← applyFields
    { rawName
      name := decode rawName
      comment := decode comment
      method := ⟨fieldAt block 10 2⟩
      compressedSize := fieldAt block 20 4
      uncompressedSize := fieldAt block 24 4
      headerStart := fieldAt block 42 4 } extra
  if draft.method == .encrypted && !draft.hasCipherNote then .error .invalidArchive
  else if longBound ≤ draft.headerStart + archiveOffset then .error .invalidArchive
  else
    .ok {
      name := draft.name
      isEncrypted := flags.testBit 0
      method := draft.method
      checksum := UInt32.ofNat (fieldAt block 16 4)
      compressedSize := draft.compressedSize
      uncompressedSize := draft.uncompressedSize
      headerStart := draft.headerStart + archiveOffset
      hasCipherNote := draft.hasCipherNote }

/-- Read the entry that begins at a place of the directory.  Gives the place
behind it too. -/
def Entry.read (c : Content) (archiveOffset start : Nat) :
    Except ArchiveError (Entry × Nat) :=
  match c.block? start entryBlockLength with
  | none => .error .invalidArchive
  | some block =>
      if fieldAt block 0 4 ≠ entrySignature then .error .invalidArchive
      else
        let nameStart := start + entryBlockLength
        let extraStart := nameStart + fieldAt block 28 2
        let commentStart := extraStart + fieldAt block 30 2
        let next := commentStart + fieldAt block 32 2
        if c.size < next then .error .invalidArchive
        else do
          let entry ← Entry.ofParts block (c.slice nameStart extraStart)
            (c.slice extraStart commentStart) (c.slice commentStart next) archiveOffset
          return (entry, next)

end BackupRestore.Zip
