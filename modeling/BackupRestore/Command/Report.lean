/-
Module: BackupRestore.Command.Report
Purpose: What a command shows, and the failures that end one.
Main exports: Report, Failure, Failure.describe, Report.ofFailure, Report.ofMisuse
-/
import BackupRestore.Error
import BackupRestore.FileTree

namespace BackupRestore.Command

/-- What a command shows, line by line, and the code with which it ends. -/
structure Report where
  code : Nat := 0
  output : List String := []
  messages : List String := []
deriving Repr, Inhabited, DecidableEq

/-- The code of a command that has restored some packages and failed on others. -/
def partialFailureCode : Nat := 1

/-- The code of a command that could not do its work. -/
def failureCode : Nat := 2

/-- The code of a command that was broken off by a misuse. -/
def misuseCode : Nat := 101

/-- Lines as one text. -/
def joinLines (lines : List String) : String := String.join (lines.map (· ++ "\n"))

/-- Why a command could not do its work. -/
inductive Failure where
  | archiveMissing (path : String)
  | settingsUnreadable (path : String) (cause : RestoreError)
  | settingsUnusable (cause : RestoreError)
  | noOutputDirectory (path : String) (fault : FileFault)
  | fileUnopened (path : String) (fault : FileFault)
  | recordsCorrupt (path : String) (cause : IoError)
deriving Repr, Inhabited, DecidableEq

namespace Failure

/-- What could not be done. -/
def message : Failure → String
  | archiveMissing path => "archive not found: " ++ path
  | settingsUnreadable path _ => "failed to load config: " ++ path
  | settingsUnusable cause => cause.message
  | noOutputDirectory path _ => "failed to create output dir: " ++ path
  | fileUnopened path _ => "failed to open " ++ path
  | recordsCorrupt path _ => "corrupt record data in " ++ path

/-- Why it could not be done, where the message does not say so itself. -/
def cause? : Failure → Option String
  | archiveMissing _ | settingsUnusable _ => none
  | settingsUnreadable _ cause => some cause.message
  | noOutputDirectory _ fault | fileUnopened _ fault => some fault.message
  | recordsCorrupt _ cause => some cause.message

/-- A text with every line set in. -/
def indent (text : String) : String :=
  "    " ++ String.ofList (text.toList.flatMap fun c =>
    if c == '\n' then '\n' :: List.replicate 4 ' ' else [c])

/-- The failure as it is shown. -/
def describe (f : Failure) : String :=
  "fatal: " ++ f.message ++
    match f.cause? with
    | none => ""
    | some cause => "\n\nCaused by:\n" ++ indent cause

end Failure

/-- The report of a command that failed after it had shown some lines. -/
def Report.ofFailure (output : List String) (f : Failure) : Report where
  code := failureCode
  output := output
  messages := [f.describe]

/-- The report of a command that was broken off after it had shown some lines. -/
def Report.ofMisuse (output : List String) (u : Misuse) : Report where
  code := misuseCode
  output := output
  messages := [u.message]

end BackupRestore.Command
