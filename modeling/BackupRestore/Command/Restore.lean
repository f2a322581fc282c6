/-
Module: BackupRestore.Command.Restore
Purpose: Restoring packages into the files of a directory.
Main exports: isFileName, Outcome, Restoring, Restoring.restorePackage, restoreAll, restorePackages
-/
import BackupRestore.Command.Source
import BackupRestore.Record.Writer

namespace BackupRestore.Command

/-!
Each package that is chosen becomes one file.  The file is made, or emptied,
before the archive is opened for the package's data; if the data cannot be moved
as a whole, the file is removed.  Where a package's name could lead out of the
directory, no file is touched.
-/

/-- Two dots stand side by side. -/
def hasTwoDots : List Char → Bool
  | '.' :: '.' :: _ => true
  | _ :: rest => hasTwoDots rest
  | [] => false

/-- A package's name may become the name of a file. -/
def isFileName (package : String) : Bool :=
  !(package.isEmpty || package == "." || hasTwoDots package.toList ||
    package.toList.any fun c => c == '/' || c == '\\')

/-- Why a package was not restored. -/
inductive PackageFailure where
  | badName
  | fileUnmade (path : String) (fault : FileFault)
  | rejected
  | status (status : Status)
deriving Repr, Inhabited, DecidableEq

/-- The wording of the failure. -/
def PackageFailure.message (package : String) : PackageFailure → String
  | badName => "invalid package name for an output file: " ++ Text.quoted package
  | fileUnmade path fault => "cannot create " ++ path ++ ": " ++ fault.message
  | rejected => "rejected by archive"
  | status s => "transport status " ++ toString s.code

/-- What has become of a package. -/
inductive Outcome where
  | records (count : Nat)
  | streamed (count : Nat)
  | failed (why : PackageFailure)
deriving Repr, Inhabited, DecidableEq

/-- The package was not restored. -/
def Outcome.isFailure : Outcome → Bool
  | failed _ => true
  | records _ | streamed _ => false

/-- The outcome as it is shown. -/
def Outcome.describe (package : String) : Outcome → String
  | records count => toString count ++ " record(s)"
  | streamed count => toString count ++ " byte(s)"
  | failed why => "failed: " ++ why.message package

/-- A package that was chosen, and what has become of it. -/
structure PackageResult where
  package : String
  mode : RestoreMode
  outcome : Outcome
deriving Repr, Inhabited, DecidableEq

/-- The line of a package. -/
def PackageResult.line (r : PackageResult) : String :=
  r.package ++ "\t" ++ r.mode.label ++ "\t" ++ r.outcome.describe r.package

/-- The ending of the name of a file that holds data of a mode. -/
def extension : RestoreMode → String
  | .fullStream => "full"
  | .keyValue | .none => "kv"

/-- The path of the file for a package. -/
def outputPath (out package : String) (mode : RestoreMode) : String :=
  (if out.isEmpty || out.toList.getLast? == some '/' then out else out ++ "/") ++ package ++ "." ++
    extension mode

variable [Zip.Codecs]

/-- A restore under way. -/
structure Restoring where
  /-- The path of the archive. -/
  archive : String
  /-- The path of the directory that receives files. -/
  out : String
  files : FileTree
  transport : Transport
  medium : Medium

namespace Restoring

/-- The restore after files have changed. -/
def withFiles (r : Restoring) (files : FileTree) : Restoring :=
  { r with files, medium := r.medium.refresh files r.archive }

/-- Remove the file of a package that was not restored. -/
def discard (r : Restoring) (place : Location) (why : PackageFailure) : Outcome × Restoring :=
  (.failed why, r.withFiles (r.files.remove place))

/-- Move the records of the chosen package into a file. -/
def restoreRecords (r : Restoring) (place : Location) : Outcome × Restoring :=
  let writer : RecordWriter := { output := .willing }
  let (answer, medium, writer) := r.transport.transferKeyValue r.medium writer
  let r := { r with medium }
  match answer with
  | .ok .ok =>
      (.records writer.records,
        r.withFiles (r.files.write place writer.output.taken.toArray))
  | .ok status => r.discard place (.status status)
  | .error _ => r.discard place (.status .error)

/-- Move the stream of the chosen package into a file. -/
def restoreStream (r : Restoring) (place : Location) : Outcome × Restoring :=
  let (answer, transport, medium, output) := r.transport.streamAll r.medium .willing
  let r := { r with transport, medium }
  match answer with
  | .ok (.ok count) =>
      (.streamed count, r.withFiles (r.files.write place output.taken.toArray))
  | .ok (.error .packageRejected) => r.discard place .rejected
  | .ok (.error status) =>
      let (_, transport, medium) := r.transport.abort r.medium
      { r with transport, medium }.discard place (.status status)
  | .error _ => r.discard place (.status .error)

/-- Restore the chosen package. -/
def restorePackage (r : Restoring) (d : PackageDescription) : Outcome × Restoring :=
  if !isFileName d.package then (.failed .badName, r)
  else
    let path := outputPath r.out d.package d.mode
    match r.files.createFile (.ofText path) with
    | .error fault =>
        let (_, transport, medium) :=
          if d.mode = .fullStream then r.transport.abort r.medium
          else (.ok, r.transport, r.medium)
        (.failed (.fileUnmade path fault), { r with transport, medium })
    | .ok (place, files) =>
        let r := r.withFiles files
        if d.mode = .fullStream then r.restoreStream place else r.restoreRecords place

end Restoring

/-- Restore the packages that have data, one after the other, up to a misuse.  No more
can be chosen than the session was asked for. -/
def restoreAll (r : Restoring) :
    (asked : List String) → List PackageResult × Option Misuse × Restoring
  | [] => ([], none, r)
  | _ :: rest =>
      match r.transport.nextPackage r.medium with
      | (.ok (.package d), transport, medium) =>
          let (outcome, r) := { r with transport, medium }.restorePackage d
          let (results, misuse, r) := restoreAll r rest
          ({ package := d.package, mode := d.mode, outcome } :: results, misuse, r)
      | (.ok .noMorePackages, transport, medium) => ([], none, { r with transport, medium })
      | (.error misuse, transport, medium) => ([], some misuse, { r with transport, medium })

/-- The report of a restore. -/
def reportRestored (results : List PackageResult) : Report :=
  let failures := (results.filter (·.outcome.isFailure)).length
  { code := if failures = 0 then 0 else partialFailureCode
    output := results.map PackageResult.line
    messages :=
      if failures = 0 then []
      else ["restore finished with " ++ toString failures ++ " failed package(s)"] }

/-- Restore packages into a directory, which is made if it is not there. -/
def restorePackages (environment : String → Option String) (files : FileTree) (s : SourceOptions)
    (out : String) (token : Option Nat) (packages : List String) : Report × FileTree :=
  match openTransport environment files s with
  | .error failure => (.ofFailure [] failure, files)
  | .ok t =>
      match files.makeDirectories (.ofText out) with
      | (.error fault, files) => (.ofFailure [] (.noOutputDirectory out fault), files)
      | (.ok _, files) =>
          let (_, transport, medium) :=
            t.start (.ofFile files s.archive) (token.getD t.currentToken) packages
          match restoreAll { archive := s.archive, out, files, transport, medium } packages with
          | (results, some misuse, r) =>
              (.ofMisuse (results.map PackageResult.line) misuse, r.files)
          | (results, none, r) => (reportRestored results, r.files)

end BackupRestore.Command
