/-
Module: BackupRestore.Proofs.Layers
Purpose: Settings that are put together from layers of changes.
Main exports: Overrides.Layering, Overrides.lastSet, Settings.apply_merge,
  Settings.apply_foldl_merge, Settings.part_of_layers, Overrides.ofVariables_eq_ok_iff,
  Command.loadSettings, Command.settings_follow_layers
-/
import BackupRestore.Command.Source
import Mathlib.Data.List.Induction

namespace BackupRestore

/-!
Changes to settings come in layers: from a document, from the environment, from the command line.
Two operations put them together.  Merging lays one layer over another, and what the later one sets
stands first in it; applying makes the changes of a layer, and what the settings were before stands
last.  So the two take their arguments the other way round.  They agree all the same: layers form
a monoid under merging, which acts on settings by applying.  However the layers are grouped, and
whether they are merged first or applied one by one, a setting is that of the last layer that sets
it.
-/

namespace Overrides

/-! ### Layers merged -/

theorem merge_assoc (a b c : Overrides) : (a.merge b).merge c = a.merge (b.merge c) := by
  simp only [merge, Option.or_assoc]

theorem empty_merge (o : Overrides) : ({} : Overrides).merge o = o := by
  simp only [merge, Option.or_none]

theorem merge_empty (o : Overrides) : o.merge {} = o := by
  simp only [merge, Option.none_or]

/-- Layers laid over one another in some grouping. -/
inductive Layering where
  /-- No layer at all. -/
  | nothing
  | layer (o : Overrides)
  /-- What the second part sets holds. -/
  | stacked (earlier later : Layering)
deriving Repr, Inhabited, DecidableEq

namespace Layering

/-- The layers, the earliest first. -/
def layers : Layering → List Overrides
  | nothing => []
  | layer o => [o]
  | stacked earlier later => earlier.layers ++ later.layers

/-- The layers merged as they are grouped. -/
def merged : Layering → Overrides
  | nothing => {}
  | layer o => o
  | stacked earlier later => earlier.merged.merge later.merged

end Layering

/-- Layers merged into one go behind it as one layer. -/
theorem foldl_merge (o : Overrides) (layers : List Overrides) :
    layers.foldl merge o = o.merge (layers.foldl merge {}) := by
  induction layers generalizing o with
  | nil => exact o.merge_empty.symm
  | cons first rest ih =>
      rw [List.foldl_cons, List.foldl_cons, ih, ih (({} : Overrides).merge first), empty_merge,
        merge_assoc]

/-- The grouping makes no difference. -/
theorem Layering.merged_eq_foldl (g : Layering) : g.merged = g.layers.foldl merge {} := by
  induction g with
  | nothing => rfl
  | layer o => exact o.empty_merge.symm
  | stacked earlier later ih_earlier ih_later =>
      rw [merged, layers, List.foldl_append, foldl_merge, ← ih_earlier, ← ih_later]

/-- What the last of some layers sets that sets it at all. -/
def lastSet {α : Type} (field : Overrides → Option α) (layers : List Overrides) : Option α :=
  layers.reverse.findSome? field

theorem lastSet_concat {α : Type} (field : Overrides → Option α) (layers : List Overrides)
    (last : Overrides) :
    lastSet field (layers ++ [last]) = (field last).or (lastSet field layers) := by
  rw [lastSet, List.reverse_append, List.reverse_singleton, List.singleton_append,
    List.findSome?_cons, lastSet]
  cases field last with
  | none => rfl
  | some value => rfl

end Overrides

namespace Settings

/-! ### Layers applied -/

theorem apply_empty (s : Settings) : s.apply {} = s := rfl

/-- Merged layers change settings as the layers do one after the other. -/
theorem apply_merge (s : Settings) (earlier later : Overrides) :
    s.apply (earlier.merge later) = (s.apply earlier).apply later := by
  simp only [apply, Overrides.merge, Option.getD_or]

theorem apply_foldl_merge (s : Settings) (layers : List Overrides) :
    s.apply (layers.foldl Overrides.merge {}) = layers.foldl apply s := by
  induction layers generalizing s with
  | nil => exact s.apply_empty
  | cons first rest ih =>
      rw [List.foldl_cons, Overrides.empty_merge, Overrides.foldl_merge, apply_merge, ih,
        List.foldl_cons]

/-- Let one layer decide about a part of the settings where it sets it.  Then the last of several
layers that sets it decides. -/
theorem part_of_layers {α : Type} (part : Settings → α) (field : Overrides → Option α)
    (decides : ∀ s o, part (apply s o) = (field o).getD (part s)) (s : Settings)
    (layers : List Overrides) :
    part (layers.foldl apply s) = (Overrides.lastSet field layers).getD (part s) := by
  induction layers using List.reverseRecOn with
  | nil => rfl
  | append_singleton layers last ih =>
      rw [List.foldl_append, List.foldl_cons, List.foldl_nil, decides, ih,
        Overrides.lastSet_concat, Option.getD_or]

/-- No layer sets the restore set. -/
theorem restoreSet_of_layers (s : Settings) (layers : List Overrides) :
    (layers.foldl apply s).restoreSet = s.restoreSet := by
  induction layers generalizing s with
  | nil => rfl
  | cons first rest ih => exact ih (s.apply first)

/-- Each setting is that of the last layer that sets it. -/
theorem foldl_apply (s : Settings) (layers : List Overrides) :
    layers.foldl apply s =
      { chunkSize := (Overrides.lastSet (·.chunkSize) layers).getD s.chunkSize
        incrementalDir := (Overrides.lastSet (·.incrementalDir) layers).getD s.incrementalDir
        fullDir := (Overrides.lastSet (·.fullDir) layers).getD s.fullDir
        restoreSet := s.restoreSet } := by
  have chunkSize := part_of_layers (·.chunkSize) (·.chunkSize) (fun _ _ => rfl) s layers
  have incrementalDir :=
    part_of_layers (·.incrementalDir) (·.incrementalDir) (fun _ _ => rfl) s layers
  have fullDir := part_of_layers (·.fullDir) (·.fullDir) (fun _ _ => rfl) s layers
  rw [← chunkSize, ← incrementalDir, ← fullDir, ← s.restoreSet_of_layers layers]

end Settings

/-! ### The layers of a command -/

/-- The changes are those that variables ask for: directories as they stand, and a size by the
number that its text spells. -/
structure Overrides.AskedBy (o : Overrides) (lookup : String → Option String) : Prop where
  chunkSize : (lookup chunkSizeVariable).map chunkSizeOf = o.chunkSize.map .ok
  incrementalDir : o.incrementalDir = lookup incrementalDirVariable
  fullDir : o.fullDir = lookup fullDirVariable

theorem Overrides.ofVariables_eq_ok_iff {lookup : String → Option String} {o : Overrides} :
    ofVariables lookup = .ok o ↔ o.AskedBy lookup := by
  obtain ⟨chunkSize, incrementalDir, fullDir⟩ := o
  constructor
  · intro read
    unfold ofVariables at read
    cases size : lookup chunkSizeVariable with
    | none =>
        rw [size] at read
        cases read
        exact ⟨by rw [size]; rfl, rfl, rfl⟩
    | some raw =>
        rw [size] at read
        cases spelled : chunkSizeOf raw with
        | error e =>
            simp only [spelled] at read
            cases read
        | ok n =>
            simp only [spelled] at read
            cases read
            exact ⟨by rw [size, Option.map_some, spelled]; rfl, rfl, rfl⟩
  · rintro ⟨asked, rfl, rfl⟩
    unfold ofVariables
    cases size : lookup chunkSizeVariable with
    | none =>
        rw [size] at asked
        cases chunkSize with
        | none => rfl
        | some n => cases asked
    | some raw =>
        rw [size] at asked
        cases chunkSize with
        | none => cases asked
        | some n =>
            have spelled : chunkSizeOf raw = .ok n := Option.some.inj asked
            simp only [spelled]
            rfl

namespace Command

/-- The changes that the settings file of a command asks for, if it has one. -/
def SourceOptions.fileChanges (s : SourceOptions) (files : FileTree) :
    Except RestoreError Overrides :=
  match s.config with
  | none => .ok {}
  | some path => readSettingsFile files path

/-- The settings of a command: all changes made to those that hold without any, and checked. -/
def loadSettings (environment : String → Option String) (files : FileTree) (s : SourceOptions) :
    Except Failure Settings := do
  let changes ← loadOverrides environment files s
  let settings := Settings.apply {} changes
  match settings.validate with
  | .ok _ => return settings
  | .error cause => .error (.settingsUnusable cause)

/-- A transport is opened with these settings, if there is an archive. -/
theorem openTransport_eq (environment : String → Option String) (files : FileTree)
    (s : SourceOptions) :
    openTransport environment files s =
      if files.isFile (.ofText s.archive) then
        (loadSettings environment files s).map fun settings => { settings }
      else .error (.archiveMissing s.archive) := by
  unfold openTransport loadSettings
  cases files.isFile (.ofText s.archive) with
  | false => rfl
  | true =>
      cases loadOverrides environment files s with
      | error failure => rfl
      | ok changes =>
          simp only [Bool.not_true, Bool.false_eq_true, if_false, if_true, bind, Except.bind,
            Transport.create]
          cases (Settings.apply {} changes).validate <;> rfl

/-- If the settings file and the variables can be read, the changes are theirs and that of the
command line, merged in this order. -/
theorem loadOverrides_of_layers {environment : String → Option String} {files : FileTree}
    {s : SourceOptions} {fromFile fromVariables : Overrides}
    (read : s.fileChanges files = .ok fromFile)
    (asked : Overrides.ofVariables environment = .ok fromVariables) :
    loadOverrides environment files s = .ok
      ([fromFile, fromVariables, { chunkSize := s.chunkSize }].foldl Overrides.merge {}) := by
  have merged : [fromFile, fromVariables, { chunkSize := s.chunkSize }].foldl Overrides.merge {} =
      (fromFile.merge fromVariables).merge { chunkSize := s.chunkSize } := by
    rw [List.foldl_cons, Overrides.empty_merge]
    rfl
  unfold SourceOptions.fileChanges at read
  unfold loadOverrides
  rw [merged, asked]
  cases config : s.config with
  | none =>
      rw [config] at read
      cases read
      rfl
  | some path =>
      rw [config] at read
      simp only [read]
      rfl

/-- What some layers set is what the settings are then, and they are checked. -/
theorem loadSettings_of_layers {environment : String → Option String} {files : FileTree}
    {s : SourceOptions} {layers : List Overrides}
    (loaded : loadOverrides environment files s = .ok (layers.foldl Overrides.merge {}))
    (settings : Settings) :
    loadSettings environment files s = .ok settings ↔
      settings = layers.foldl Settings.apply {} ∧
        (layers.foldl Settings.apply {}).validate = .ok () := by
  simp only [loadSettings, loaded, bind, Except.bind, Settings.apply_foldl_merge]
  cases checked : (layers.foldl Settings.apply {}).validate with
  | error cause =>
      constructor
      · exact nofun
      · rintro ⟨-, valid⟩
        cases valid
  | ok done =>
      constructor
      · intro same
        cases same
        exact ⟨rfl, rfl⟩
      · rintro ⟨rfl, -⟩
        rfl

/-- Layers of changes.  Merged in any grouping and applied at once, or applied one after the other,
they lead to the same settings; an empty layer changes nothing; each setting is that of the last
layer that sets it, and the restore set is kept.  So, if the settings file and the variables can be
read, a command works with the size of chunks that is given on its command line, else with what the
variables say, else with what the file says, else with the default, and likewise with the
directories; and it accepts these settings only if they pass the check. -/
theorem settings_follow_layers :
    (∀ (base : Settings) (g : Overrides.Layering),
      base.apply g.merged = g.layers.foldl Settings.apply base ∧
        g.merged = g.layers.foldl Overrides.merge {}) ∧
    (∀ o : Overrides, Overrides.merge {} o = o ∧ o.merge {} = o) ∧
    (∀ (base : Settings) (layers : List Overrides),
      layers.foldl Settings.apply base =
        { chunkSize := (Overrides.lastSet (·.chunkSize) layers).getD base.chunkSize
          incrementalDir := (Overrides.lastSet (·.incrementalDir) layers).getD base.incrementalDir
          fullDir := (Overrides.lastSet (·.fullDir) layers).getD base.fullDir
          restoreSet := base.restoreSet }) ∧
    ∀ (environment : String → Option String) (files : FileTree) (s : SourceOptions)
      (fromFile fromVariables : Overrides), s.fileChanges files = .ok fromFile →
      Overrides.ofVariables environment = .ok fromVariables →
      fromVariables.AskedBy environment ∧
      ∃ chosen : Settings,
        chosen.chunkSize = ([s.chunkSize, fromVariables.chunkSize,
          fromFile.chunkSize].findSome? id).getD ({} : Settings).chunkSize ∧
        chosen.incrementalDir = ([fromVariables.incrementalDir,
          fromFile.incrementalDir].findSome? id).getD ({} : Settings).incrementalDir ∧
        chosen.fullDir = ([fromVariables.fullDir,
          fromFile.fullDir].findSome? id).getD ({} : Settings).fullDir ∧
        chosen.restoreSet = .localImage ∧
        (∀ settings, loadSettings environment files s = .ok settings ↔
          settings = chosen ∧ chosen.validate = .ok ()) ∧
        ∀ t, openTransport environment files s = .ok t ↔
          files.isFile (.ofText s.archive) = true ∧ t = { settings := chosen } ∧
            chosen.validate = .ok () := by
  refine ⟨?_, ?_, Settings.foldl_apply, ?_⟩
  · intro base g
    refine ⟨?_, g.merged_eq_foldl⟩
    rw [g.merged_eq_foldl, base.apply_foldl_merge]
  · exact fun o => ⟨o.empty_merge, o.merge_empty⟩
  · intro environment files s fromFile fromVariables read asked
    refine ⟨Overrides.ofVariables_eq_ok_iff.1 asked, ?_⟩
    have loaded := loadSettings_of_layers (loadOverrides_of_layers read asked)
    have fields := Settings.foldl_apply {} [fromFile, fromVariables, { chunkSize := s.chunkSize }]
    -- Neither text is on the command line, so the last layer leaves the directories as they are.
    refine ⟨[fromFile, fromVariables, { chunkSize := s.chunkSize }].foldl Settings.apply {},
      ?_, ?_, ?_, ?_, loaded, ?_⟩
    · rw [fields]
      rfl
    · rw [fields]
      rfl
    · rw [fields]
      rfl
    · rw [fields]
    · intro t
      rw [openTransport_eq]
      cases files.isFile (.ofText s.archive) with
      | false => exact ⟨nofun, fun h => nomatch h.1⟩
      | true =>
          rw [if_pos rfl]
          constructor
          · intro opened
            cases known : loadSettings environment files s with
            | error failure =>
                rw [known] at opened
                cases opened
            | ok settings =>
                rw [known] at opened
                cases opened
                obtain ⟨rfl, valid⟩ := (loaded settings).1 known
                exact ⟨rfl, rfl, valid⟩
          · rintro ⟨-, rfl, valid⟩
            rw [(loaded _).2 ⟨rfl, valid⟩]
            rfl

namespace Sample

/-- An archive and a settings file. -/
def configured : FileTree where
  nodes := [(["backup"], .file #[]),
    (["settings"], .file (Text.utf8Bytes "chunk_size: 512\nfull_dir: data/\n").toArray)]

/-- The environment asks for chunks of 64 bytes and for another directory of records. -/
def asking (name : String) : Option String :=
  if name = "ZIPVAULT_CHUNK_SIZE" then some " 64 "
  else if name = "ZIPVAULT_INCREMENTAL_DIR" then some "kv/"
  else none

end Sample

/-- The file and the environment give a size of chunks, and the command line gives another one. -/
theorem settings_follow_layers_of_sample :
    SourceOptions.fileChanges
        { archive := "backup", config := some "settings", chunkSize := some 3 } Sample.configured =
      .ok { chunkSize := some 512, fullDir := some "data/" } ∧
    Overrides.ofVariables Sample.asking =
      .ok { chunkSize := some 64, incrementalDir := some "kv/" } ∧
    openTransport Sample.asking Sample.configured
        { archive := "backup", config := some "settings", chunkSize := some 3 } =
      .ok { settings := { chunkSize := 3, incrementalDir := "kv/", fullDir := "data/" } } := by
  have read : SourceOptions.fileChanges
      { archive := "backup", config := some "settings", chunkSize := some 3 } Sample.configured =
      .ok { chunkSize := some 512, fullDir := some "data/" } := by decide +kernel
  have asked : Overrides.ofVariables Sample.asking =
      .ok { chunkSize := some 64, incrementalDir := some "kv/" } := rfl
  obtain ⟨-, -, -, command⟩ := settings_follow_layers
  obtain ⟨-, ⟨chunkSize, incrementalDir, fullDir, restoreSet⟩, size, records, streams, held, -,
    opened⟩ := command _ _ _ _ _ read asked
  cases size
  cases records
  cases streams
  cases held
  exact ⟨read, asked, (opened _).2 ⟨rfl, rfl, rfl⟩⟩

end Command
end BackupRestore
