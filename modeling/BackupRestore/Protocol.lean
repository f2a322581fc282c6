/-
Module: BackupRestore.Protocol
Purpose: The values that a restore shows to its host.
Main exports: RestoreMode, PackageDescription, NextPackage, ChunkResult, Status, RestoreSet
-/

namespace BackupRestore

/-- How a package's data is stored in the archive. -/
inductive RestoreMode where
  /-- Nothing is stored, or nothing is known yet. -/
  | none
  /-- Single records, one archive entry each. -/
  | keyValue
  /-- One opaque sequence of bytes. -/
  | fullStream
deriving Repr, Inhabited, DecidableEq

/-- The mode as it is shown. -/
def RestoreMode.label : RestoreMode → String
  | .none => "none"
  | .keyValue => "key-value"
  | .fullStream => "full-stream"

/-- A package chosen for restore, with its mode. -/
structure PackageDescription where
  package : String
  mode : RestoreMode
deriving Repr, Inhabited, DecidableEq

/-- What advancing to the next package gives. -/
inductive NextPackage where
  | package (description : PackageDescription)
  | noMorePackages
deriving Repr, Inhabited, DecidableEq

/-- The chosen package, if there is one. -/
def NextPackage.description? : NextPackage → Option PackageDescription
  | .package description => some description
  | .noMorePackages => Option.none

/-- What one step of a full stream gives. -/
inductive ChunkResult where
  /-- This many bytes went to the output. -/
  | data (count : Nat)
  /-- The stream has come to its end. -/
  | noMoreData
deriving Repr, Inhabited, DecidableEq

/-- The status that an operation reports to the host. -/
inductive Status where
  | ok
  | error
  | packageRejected
  | noMoreData
deriving Repr, Inhabited, DecidableEq

/-- The number that stands for the status on the wire. -/
def Status.code : Status → Int
  | .ok => 0
  | .error => -1000
  | .packageRejected => -1002
  | .noMoreData => -1

/-- The largest number that a chunk's wire code can hold. -/
def maxWireCode : Nat := 0x7FFFFFFF

/-- The wire code of a chunk call: how many bytes were moved, or a status. -/
def chunkCode : Except Status ChunkResult → Int
  | .ok (.data count) => Int.ofNat (min count maxWireCode)
  | .ok .noMoreData => Status.code .noMoreData
  | .error status => status.code

/-- A restore set as it is offered to the host. -/
structure RestoreSet where
  name : String
  device : String
  token : Nat
deriving Repr, Inhabited, DecidableEq

/-- The one set that an archive on the local disk offers. -/
def RestoreSet.localImage : RestoreSet :=
  { name := "Local disk image", device := "flash", token := 1 }

end BackupRestore
