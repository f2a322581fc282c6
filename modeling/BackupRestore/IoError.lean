/-
Module: BackupRestore.IoError
Purpose: The causes for which reading bytes or writing bytes can fail.
Main exports: IoKind, CloseReason, IoError, IoError.kind, IoError.message
-/

namespace BackupRestore

/-!
A failure is named by its cause.  The class (`IoKind`) and the wording
(`IoError.message`) are functions of the cause, so two places that fail for
one reason cannot report it differently.  `external` carries what a medium or
an output outside this library reports of itself.
-/

/-- The class of a failed read or write. -/
inductive IoKind where
  | notFound
  | permissionDenied
  | brokenPipe
  | invalidData
  | invalidInput
  | unexpectedEof
  | writeZero
  | other
deriving Repr, Inhabited, DecidableEq

/-- Why a full stream has ended. -/
inductive CloseReason where
  | exhausted
  | rejected
  | failed
  | aborted
deriving Repr, Inhabited, DecidableEq

/-- The reason as it is shown. -/
def CloseReason.label : CloseReason → String
  | .exhausted => "Exhausted"
  | .rejected => "Rejected"
  | .failed => "Failed"
  | .aborted => "Aborted"

/-- A cause for which bytes could not be read or written. -/
inductive IoError where
  /-- Fewer bytes were left than the reader needs. -/
  | cutShort
  /-- The output took none of the bytes offered. -/
  | nothingTaken
  /-- The compressed data breaks the rules of its format. -/
  | corruptDeflate
  /-- The compressed data ends before its final block does. -/
  | incompleteDeflate
  /-- The bytes read do not have the recorded checksum. -/
  | wrongChecksum
  /-- No local header stands where the directory says that `path` begins. -/
  | badLocalHeader (path : String)
  /-- A place was sought that lies beyond what the medium can hold. -/
  | placeOutOfReach
  /-- A directory announces more or fewer times for an entry than it gives. -/
  | timesMismatch
  /-- A record begins with fewer bytes than a header has. -/
  | truncatedHeader
  /-- A record does not begin with the magic number. -/
  | badMagic (found : Nat)
  /-- A record declares a key or a value above the reader's limits. -/
  | oversizedRecord
  /-- The byte after a record's key is not zero. -/
  | unterminatedKey
  /-- A header was written while another one waits for its data. -/
  | headerPending
  /-- The key's length does not fit in a header. -/
  | keyTooLong
  /-- The data's length does not fit in a header. -/
  | dataTooLong
  /-- The data is not as long as the header declared. -/
  | lengthMismatch (written declared : Nat)
  /-- Data was written that no header announced. -/
  | headerMissing
  /-- A stream was asked for data after it had ended badly. -/
  | streamClosed (reason : CloseReason)
  /-- The medium or the output reports a failure of its own. -/
  | external (kind : IoKind) (text : String)
deriving Repr, Inhabited, DecidableEq

/-- A number below `2 ^ 32` as eight lower-case hexadecimal digits. -/
def hex32 (n : Nat) : String :=
  String.ofList ((List.range 8).map fun i => Nat.digitChar (n >>> (28 - 4 * i) % 16))

namespace IoError

/-- The class of the failure. -/
def kind : IoError → IoKind
  | cutShort | incompleteDeflate => .unexpectedEof
  | nothingTaken => .writeZero
  | corruptDeflate | headerPending | keyTooLong | dataTooLong => .invalidInput
  | lengthMismatch .. | headerMissing | placeOutOfReach => .invalidInput
  | wrongChecksum | badLocalHeader _ | truncatedHeader | badMagic _ => .invalidData
  | oversizedRecord | unterminatedKey => .invalidData
  | streamClosed _ | timesMismatch => .other
  | external kind _ => kind

/-- The wording of the failure. -/
def message : IoError → String
  | cutShort => "failed to fill whole buffer"
  | nothingTaken => "failed to write whole buffer"
  | corruptDeflate => "corrupt deflate stream"
  | incompleteDeflate => "incomplete deflate stream"
  | wrongChecksum => "Invalid checksum"
  | badLocalHeader path => "bad local header signature for " ++ path
  | placeOutOfReach => "Invalid argument (os error 22)"
  | timesMismatch => "the times of an entry are not those announced"
  | truncatedHeader => "truncated entity header"
  | badMagic found => "bad entity magic 0x" ++ hex32 found
  | oversizedRecord => "entity exceeds size limits"
  | unterminatedKey => "entity key is not NUL terminated"
  | headerPending => "entity header written before previous data"
  | keyTooLong => "key too long"
  | dataTooLong => "record data too long"
  | lengthMismatch written declared =>
      s!"entity data is {written} bytes, header declared {declared}"
  | headerMissing => "entity data written without header"
  | streamClosed reason => "stream is closed (" ++ reason.label ++ ")"
  | external _ text => text

/-- The failure of an open of a file that does not exist. -/
def noSuchFile : IoError :=
  .external .notFound "No such file or directory (os error 2)"

end IoError

end BackupRestore
