/-
Module: BackupRestore.Command.Program
Purpose: The commands of the program `zipvault`, as functions on a tree of files.
Main exports: programName, programVersion, helpLines, Request.paths, run
-/
import BackupRestore.Command.Dump
import BackupRestore.Command.List
import BackupRestore.Command.Restore

namespace BackupRestore.Command

/-- The name of the program. -/
def programName : String := "zipvault"

/-- The version of the program. -/
def programVersion : String := "0.4.0"

/-- How the program is used. -/
def helpLines : List String :=
  ["Restore application data from a zipvault backup archive",
    "",
    "Usage: zipvault [-v] <command>",
    "",
    "  sets    --archive <file>",
    "  list    --archive <file> <package>...",
    "  restore --archive <file> --out <directory> [--token <number>] <package>...",
    "  dump    <file>",
    "",
    "The archive can be named by ZIPVAULT_ARCHIVE.  Commands that take one also take",
    "--config <file> and --chunk-size <number>."]

/-- The paths of all files and directories that a request can read or write. -/
def Request.paths : Request → List String
  | .version | .help => []
  | .sets source | .list source _ => source.archive :: source.config.toList
  | .restore source out _ packages =>
      source.archive :: source.config.toList ++ out ::
        (packages.filter isFileName).flatMap fun package =>
          [outputPath out package .keyValue, outputPath out package .fullStream]
  | .dump file => [file]

/-- Do what a command line asks for.  Gives what is shown, and the files
afterwards. -/
def run [Zip.Codecs] (environment : String → Option String) (files : FileTree) :
    Request → Report × FileTree
  | .version => ({ output := [programName ++ " " ++ programVersion] }, files)
  | .help => ({ output := helpLines }, files)
  | .sets source => (listSets environment files source, files)
  | .list source packages => (listPackages environment files source packages, files)
  | .restore source out token packages =>
      restorePackages environment files source out token packages
  | .dump file => (dumpRecords files file, files)

end BackupRestore.Command
