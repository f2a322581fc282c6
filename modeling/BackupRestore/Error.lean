/-
Module: BackupRestore.Error
Purpose: The causes for which probing or transferring a package can fail.
Main exports: ArchiveError, RestoreError, RestoreError.message, RestoreError.isRejection,
  RestoreError.status, Misuse
-/
import BackupRestore.IoError
import BackupRestore.Protocol

namespace BackupRestore

/-- Why an archive could not be read as a zip container. -/
inductive ArchiveError where
  | invalidArchive
  | unsupportedArchive
  | fileNotFound
  | invalidPassword
  | io (cause : IoError)
deriving Repr, Inhabited, DecidableEq

/-- The wording of the failure. -/
def ArchiveError.message : ArchiveError → String
  | .invalidArchive => "invalid Zip archive"
  | .unsupportedArchive => "unsupported Zip archive"
  | .fileNotFound => "specified file not found in archive"
  | .invalidPassword => "The provided password is incorrect"
  | .io cause => "i/o error: " ++ cause.message

/-- Why a package could not be probed or restored. -/
inductive RestoreError where
  /-- Bytes could not be read from the medium or written to the output. -/
  | io (cause : IoError)
  /-- The medium does not hold a readable zip container. -/
  | archive (cause : ArchiveError)
  /-- An entry name does not spell a record key. -/
  | keyDecode (name reason : String)
  /-- The package's full stream is missing or cannot be used. -/
  | packageRejected (package : String)
  /-- The full stream is compressed with a method that cannot be streamed. -/
  | unsupportedCompression (path method : String)
  /-- The full stream is encrypted. -/
  | encryptedEntry (path : String)
  /-- Moving the data of a chosen package failed part way. -/
  | transfer (package : String) (source : RestoreError)
  /-- The settings cannot be read or cannot be used. -/
  | config (text : String)
deriving Repr, Inhabited, DecidableEq

namespace RestoreError

/-- The wording of the failure. -/
def message : RestoreError → String
  | io cause => "I/O error: " ++ cause.message
  | archive cause => "archive error: " ++ cause.message
  | keyDecode name reason => "invalid record key '" ++ name ++ "': " ++ reason
  | packageRejected package => "package rejected: " ++ package
  | unsupportedCompression path method =>
      "unsupported compression for " ++ path ++ ": " ++ method
  | encryptedEntry path => "encrypted entry not supported: " ++ path
  | transfer package source => "transfer failed for " ++ package ++ ": " ++ source.message
  | config text => "configuration error: " ++ text

/-- The package was refused, not lost on the way. -/
def isRejection : RestoreError → Bool
  | packageRejected _ | unsupportedCompression .. | encryptedEntry _ => true
  | _ => false

/-- Data was being moved when the failure happened. -/
def isTransferFailure : RestoreError → Bool
  | transfer .. => true
  | _ => false

/-- The status reported to the host: a refusal is told apart from a failure. -/
def status (e : RestoreError) : Status :=
  if e.isRejection then .packageRejected else .error

end RestoreError

/-- A call that no caller should make: it is out of sequence, or asks for more than
can be held.  It gives no answer. -/
inductive Misuse where
  /-- The operation needs a session and none has been started. -/
  | notStarted (operation : String)
  /-- Records were asked for before a package was chosen. -/
  | noPackageForRecords
  /-- Records were asked for, and the chosen package has none. -/
  | notKeyValue (package : String)
  /-- A chunk was asked for, and no full-stream package is chosen. -/
  | notFullStream
  /-- A chunk was asked for, and no stream has been prepared. -/
  | noStream
  /-- A stream was asked for whose chunks are larger than any buffer can be. -/
  | chunkTooLarge
deriving Repr, Inhabited, DecidableEq

/-- The wording of the complaint. -/
def Misuse.message : Misuse → String
  | .notStarted operation => operation ++ "() called before start()"
  | .noPackageForRecords => "transfer_key_value() called before next_package()"
  | .notKeyValue package => "transfer_key_value() for non key/value package " ++ package
  | .notFullStream => "stream_chunk() for non full-stream package"
  | .noStream => "stream_chunk() called before next_package()"
  | .chunkTooLarge => "capacity overflow"

end BackupRestore
