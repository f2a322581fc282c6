/-
Module: BackupRestore.Command.Source
Purpose: The archive that a command works on, and the settings for it.
Main exports: loadOverrides, openTransport, Medium.ofFile, Medium.refresh
-/
import BackupRestore.Command.Arguments
import BackupRestore.Command.Report
import BackupRestore.Settings.Document
import BackupRestore.Transport

namespace BackupRestore

namespace Medium

/-- The bytes that an open of a file finds. -/
def contentOfFile (files : FileTree) (path : String) : Except IoError Content :=
  match files.readFile (.ofText path) with
  | .ok content => .ok content
  | .error fault => .error (.external .notFound fault.message)

/-- The medium that holds the bytes of a file. -/
def ofFile (files : FileTree) (path : String) : Medium :=
  { content := contentOfFile files path, reach := some fileReach }

/-- The medium after files have changed: an open finds what the file holds now. -/
def refresh (m : Medium) (files : FileTree) (path : String) : Medium :=
  { m with content := contentOfFile files path }

end Medium

namespace Command

/-- The changes that a settings file asks for. -/
def readSettingsFile (files : FileTree) (path : String) : Except RestoreError Overrides :=
  let unread (why : String) : Except RestoreError Overrides :=
    .error (.config ("failed to read config " ++ path ++ ": " ++ why))
  match files.readFile (.ofText path) with
  | .error fault => unread fault.message
  | .ok content =>
      match Text.decodeUtf8? content.toList with
      | none => unread "stream did not contain valid UTF-8"
      | some text => Overrides.ofYaml text

/-- The changes to the settings: of the settings file, then of the environment, then of
the command line.  What comes later holds. -/
def loadOverrides (environment : String → Option String) (files : FileTree) (s : SourceOptions) :
    Except Failure Overrides := do
  let fromFile ←
    match s.config with
    | none => .ok {}
    | some path =>
        match readSettingsFile files path with
        | .ok changes => .ok changes
        | .error cause => .error (Failure.settingsUnreadable path cause)
  let fromVariables ←
    match Overrides.ofVariables environment with
    | .ok changes => .ok changes
    | .error cause => .error (Failure.settingsUnusable cause)
  return (fromFile.merge fromVariables).merge { chunkSize := s.chunkSize }

/-- A transport over the archive, with settings that have been checked. -/
def openTransport (environment : String → Option String) (files : FileTree) (s : SourceOptions) :
    Except Failure Transport := do
  if !files.isFile (.ofText s.archive) then .error (.archiveMissing s.archive)
  else
    let changes ← loadOverrides environment files s
    match Transport.create (Settings.apply {} changes) with
    | .ok t => return t
    | .error cause => .error (.settingsUnusable cause)

end Command

end BackupRestore
