/-
Module: BackupRestore.Command.Dump
Purpose: The command that shows the records of a restored file.
Main exports: recordLine, dumpRecords
-/
import BackupRestore.Command.Report
import BackupRestore.Record.Reader

namespace BackupRestore.Command

/-- The line of a record: its key and the length of its value. -/
def recordLine (r : Record) : String :=
  Text.decodeUtf8Lossy r.key ++ "\t" ++ toString r.value.length

/-- The reader of the file to which a path leads.  A directory can be opened, but no
read of it succeeds. -/
def openRecords (files : FileTree) (path : String) : Except Failure RecordReader :=
  match files.find (.ofText path) with
  | .error fault => .error (.fileUnopened path fault)
  | .ok (_, .file content) => .ok (.ofContent content {})
  | .ok (_, .directory) =>
      .ok (.ofContent #[] { blocked := some (.external .other FileFault.isDirectory.message) })

/-- Show the records of a file, up to a failure. -/
def dumpRecords (files : FileTree) (path : String) : Report :=
  match openRecords files path with
  | .error failure => .ofFailure [] failure
  | .ok reader =>
      match reader.readAll with
      | (records, some cause) =>
          .ofFailure (records.map recordLine) (.recordsCorrupt path cause)
      | (records, none) =>
          { output := records.map recordLine
            messages := [toString records.length ++ " record(s)"] }

end BackupRestore.Command
