/-
Module: BackupRestore.Settings
Purpose: The settings of a restore, and changes to them from several places.
Main exports: Settings, Settings.validate, Settings.layout, Overrides, Overrides.merge,
  Settings.apply, Overrides.ofVariables
-/
import BackupRestore.Error
import BackupRestore.Layout
import BackupRestore.Text.Number

namespace BackupRestore

/-- The settings shared by all sessions of a transport. -/
structure Settings where
  /-- The most bytes that one chunk moves. -/
  chunkSize : Nat := 2048
  incrementalDir : String := "incremental/"
  fullDir : String := "full/"
  restoreSet : RestoreSet := .localImage
deriving Repr, Inhabited, DecidableEq

/-- Changes to some of the settings. -/
structure Overrides where
  chunkSize : Option Nat := none
  incrementalDir : Option String := none
  fullDir : Option String := none
deriving Repr, Inhabited, DecidableEq

/-- Why settings cannot be used. -/
inductive SettingsFault where
  | emptyChunks
  | badDirectory (field dir : String)
  | sameDirectory
deriving Repr, Inhabited, DecidableEq

/-- The wording of the fault. -/
def SettingsFault.message : SettingsFault → String
  | emptyChunks => "chunk_size must be greater than zero"
  | badDirectory field dir =>
      field ++ " must be a non-empty directory ending in '/', got '" ++ dir ++ "'"
  | sameDirectory => "incremental_dir and full_dir must differ"

namespace Settings

/-- A directory that settings may name: it ends in a separator and is more than
that. -/
def isDirectoryName (dir : String) : Bool :=
  dir.toList.getLast? == some '/' && dir != "/"

/-- The first fault of the settings, if there is one. -/
def fault? (s : Settings) : Option SettingsFault :=
  if s.chunkSize = 0 then some .emptyChunks
  else if !isDirectoryName s.incrementalDir then
    some (.badDirectory "incremental_dir" s.incrementalDir)
  else if !isDirectoryName s.fullDir then some (.badDirectory "full_dir" s.fullDir)
  else if s.incrementalDir = s.fullDir then some .sameDirectory
  else none

/-- Settings that a session can work with. -/
def validate (s : Settings) : Except RestoreError Unit :=
  match s.fault? with
  | some fault => .error (.config fault.message)
  | none => .ok ()

/-- The layout that the settings describe. -/
def layout (s : Settings) : Layout := .ofDirectories s.incrementalDir s.fullDir

/-- The settings with changes made to them. -/
def apply (s : Settings) (o : Overrides) : Settings where
  chunkSize := o.chunkSize.getD s.chunkSize
  incrementalDir := o.incrementalDir.getD s.incrementalDir
  fullDir := o.fullDir.getD s.fullDir
  restoreSet := s.restoreSet

end Settings

namespace Overrides

/-- Changes with later ones laid over them: what `later` sets, holds. -/
def merge (earlier later : Overrides) : Overrides where
  chunkSize := later.chunkSize.or earlier.chunkSize
  incrementalDir := later.incrementalDir.or earlier.incrementalDir
  fullDir := later.fullDir.or earlier.fullDir

/-- The variable that sets the size of chunks. -/
def chunkSizeVariable : String := "ZIPVAULT_CHUNK_SIZE"

/-- The variable that sets the directory of records. -/
def incrementalDirVariable : String := "ZIPVAULT_INCREMENTAL_DIR"

/-- The variable that sets the directory of full streams. -/
def fullDirVariable : String := "ZIPVAULT_FULL_DIR"

/-- The size of chunks that a variable's text gives.  Blank space around the
number is allowed. -/
def chunkSizeOf (raw : String) : Except RestoreError Nat :=
  match Text.parseWord64 (Text.trimBlank raw) with
  | .ok n => .ok n
  | .error fault =>
      .error (.config
        (chunkSizeVariable ++ "='" ++ raw ++ "' is not a byte count: " ++ fault.message))

/-- The changes that the environment asks for. -/
def ofVariables (lookup : String → Option String) : Except RestoreError Overrides := do
  let chunkSize ←
    match lookup chunkSizeVariable with
    | none => .ok none
    | some raw => (chunkSizeOf raw).map some
  return {
    chunkSize
    incrementalDir := lookup incrementalDirVariable
    fullDir := lookup fullDirVariable }

end Overrides

end BackupRestore
