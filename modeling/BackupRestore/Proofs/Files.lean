/-
Module: BackupRestore.Proofs.Files
Purpose: Where paths lead in a tree of files, and which changes to the tree leave that alone.
Main exports: FileTree.Leads, FileTree.Leads.of_directories, FileTree.find_eq_ok_iff,
  FileTree.createFile_eq_ok, FileTree.Grows, FileTree.grows_makeDirectories, FileTree.Paves,
  FileTree.paves_makeDirectories, FileTree.find_makeDirectories, FileTree.SameDirectories,
  FileTree.SameDirectories.leads_iff, FileTree.Alters
-/
import BackupRestore.FileTree

namespace BackupRestore.FileTree

/-!
On its way a path passes directories only, so a tree in which other directories are made or files
are changed leads it where it did.  Two kinds of change are told apart: directories are added and
all that stands stays (`Grows`), or files come and go and the directories stay
(`SameDirectories`).
-/

/-! ### Where a path leads -/

/-- Where one name leads from a directory, unless it is too long to lead anywhere. -/
def step? (place : Location) (name : String) : Option Location :=
  if name = "." then some place
  else if name = ".." then some place.dropLast
  else if nameLimit < byteLength name then none
  else some (place ++ [name])

/-- Names are followed one by one, each from a directory. -/
theorem follow_cons_eq_ok_iff {t : FileTree} {place goal : Location} {name : String}
    {rest : List String} :
    t.follow place (name :: rest) = .ok goal ↔
      t.node? place = some .directory ∧
        ∃ next, step? place name = some next ∧ t.follow next rest = .ok goal := by
  rw [follow]
  cases here : t.node? place with
  | none => simp
  | some node =>
      cases node with
      | file content => simp
      | directory =>
          unfold step?
          by_cases stays : name = "."
          · simp [stays]
          · by_cases climbs : name = ".."
            · simp [climbs]
            · by_cases long : nameLimit < byteLength name
              · simp [stays, climbs, long]
              · simp [stays, climbs, long]

theorem follow_append_eq_ok {t : FileTree} {place middle goal : Location}
    {names later : List String} (first : t.follow place names = .ok middle)
    (second : t.follow middle later = .ok goal) :
    t.follow place (names ++ later) = .ok goal := by
  induction names generalizing place with
  | nil =>
      cases first
      exact second
  | cons name names ih =>
      obtain ⟨directory, next, step, rest⟩ := follow_cons_eq_ok_iff.1 first
      exact follow_cons_eq_ok_iff.2 ⟨directory, next, step, ih rest⟩

/-- On the way along names followed by others, the first names lead somewhere. -/
theorem exists_middle_of_follow {t : FileTree} {place goal : Location}
    {names later : List String} (led : t.follow place (names ++ later) = .ok goal) :
    ∃ middle, t.follow place names = .ok middle ∧ t.follow middle later = .ok goal := by
  induction names generalizing place with
  | nil => exact ⟨place, rfl, led⟩
  | cons name names ih =>
      obtain ⟨directory, next, step, rest⟩ := follow_cons_eq_ok_iff.1 led
      obtain ⟨middle, first, second⟩ := ih rest
      exact ⟨middle, follow_cons_eq_ok_iff.2 ⟨directory, next, step, first⟩, second⟩

/-- A name that stays where it is can be left out. -/
theorem follow_without_dots {t : FileTree} {place goal : Location} {names : List String}
    (led : t.follow place names = .ok goal) :
    t.follow place (names.filter (· != ".")) = .ok goal := by
  induction names generalizing place with
  | nil => exact led
  | cons name names ih =>
      obtain ⟨directory, next, step, rest⟩ := follow_cons_eq_ok_iff.1 led
      by_cases stays : name = "."
      · subst stays
        cases step
        exact ih rest
      · rw [List.filter_cons_of_pos (by simpa using stays)]
        exact follow_cons_eq_ok_iff.2 ⟨directory, next, step, ih rest⟩

/-- A path begins at the top or in the working directory. -/
theorem start_eq_ok {t : FileTree} {path : PathName} {first : Location}
    (begins : t.start path = .ok first) :
    path.isEmpty = false ∧ first = if path.isAbsolute then [] else t.here := by
  unfold FileTree.start at begins
  split at begins
  · cases begins
  · split at begins
    · cases begins
    · rename_i some_name
      cases begins
      exact ⟨eq_false_of_ne_true some_name, rfl⟩

/-- The path leads to the location, whether or not anything stands there. -/
def Leads (t : FileTree) (path : PathName) (place : Location) : Prop :=
  ∃ first, t.start path = .ok first ∧ t.follow first path.names = .ok place

section Kept

variable {t t' : FileTree} {path : PathName}
  (keeps : ∀ place, t.node? place = some .directory → t'.node? place = some .directory)

include keeps

/-- Names are followed as they were in a tree that has kept its directories. -/
theorem follow_of_directories {place goal : Location} {names : List String}
    (led : t.follow place names = .ok goal) : t'.follow place names = .ok goal := by
  induction names generalizing place with
  | nil => exact led
  | cons name names ih =>
      obtain ⟨directory, next, step, rest⟩ := follow_cons_eq_ok_iff.1 led
      exact follow_cons_eq_ok_iff.2 ⟨keeps place directory, next, step, ih rest⟩

/-- A path leads where it did in a tree with the same working directory that has kept its
directories. -/
theorem Leads.of_directories {goal : Location} (led : t.Leads path goal)
    (here : t'.here = t.here) : t'.Leads path goal := by
  obtain ⟨first, begins, led⟩ := led
  refine ⟨first, ?_, follow_of_directories keeps led⟩
  rw [FileTree.start, here]
  exact begins

/-- The directory for something new is found as it was, and so is its name. -/
theorem findParent_of_directories {found : Location × Option String}
    (parent : t.findParent path = .ok found) (here : t'.here = t.here) :
    t'.findParent path = .ok found := by
  have start : t'.start path = t.start path := by
    rw [FileTree.start, here]
    rfl
  unfold findParent at parent ⊢
  rw [start]
  cases begins : t.start path with
  | error fault => simp [bind, Except.bind, begins] at parent
  | ok first =>
      simp only [bind, Except.bind, begins] at parent ⊢
      cases last : path.names.getLast? with
      | none =>
          rw [last] at parent
          exact parent
      | some name =>
          rw [last] at parent
          cases led : t.follow first path.names.dropLast with
          | error fault => simp [led] at parent
          | ok place =>
              simp only [led] at parent
              simp only [follow_of_directories keeps led]
              cases around : t.node? place with
              | none => simp [around] at parent
              | some node =>
                  cases node with
                  | file content => simp [around] at parent
                  | directory =>
                      rw [around] at parent
                      rw [keeps place around]
                      exact parent

end Kept

/-- What is found stands where the path leads. -/
theorem find_eq_ok_iff {t : FileTree} {path : PathName} {place : Location} {node : Node} :
    t.find path = .ok (place, node) ↔
      t.Leads path place ∧ t.node? place = some node ∧
        (node ≠ .directory → path.endsInSlash = false) := by
  unfold find Leads
  cases begins : t.start path with
  | error fault => simp [bind, Except.bind]
  | ok first =>
      cases led : t.follow first path.names with
      | error fault => simp [bind, Except.bind, led]
      | ok goal =>
          simp only [bind, Except.bind, led, Except.ok.injEq, exists_eq_left']
          constructor
          · intro found
            split at found
            · cases found
            · rename_i here
              cases found
              exact ⟨rfl, here, fun other => absurd rfl other⟩
            · rename_i content here
              split at found
              · cases found
              · rename_i open_
                cases found
                exact ⟨rfl, here, fun _ => eq_false_of_ne_true open_⟩
          · rintro ⟨rfl, here, open_⟩
            rw [here]
            cases node with
            | directory => rfl
            | file content => simp [open_ (by simp)]

/-- What is found is told by what stands where the path leads. -/
theorem find_of_leads {t : FileTree} {path : PathName} {place : Location}
    (led : t.Leads path place) :
    t.find path = match t.node? place with
      | none => .error .notFound
      | some .directory => .ok (place, .directory)
      | some (.file content) =>
          if path.endsInSlash then .error .notDirectory else .ok (place, .file content) := by
  obtain ⟨first, begins, followed⟩ := led
  cases stands : t.node? place with
  | none => simp only [find, begins, bind, Except.bind, followed, stands]
  | some node => cases node <;> simp only [find, begins, bind, Except.bind, followed, stands]

/-- The file that is read stands where the path leads. -/
theorem readFile_eq_ok_iff {t : FileTree} {path : PathName} {content : Content} :
    t.readFile path = .ok content ↔ ∃ place, t.find path = .ok (place, .file content) := by
  unfold readFile
  cases t.find path with
  | error fault => simp [bind, Except.bind]
  | ok found =>
      obtain ⟨place, node⟩ := found
      cases node with
      | directory => simp [bind, Except.bind]
      | file content' => simp [bind, Except.bind]

/-- A name in a directory is where the path to it leads.  It is one of the path's names, and does
not stay where it is. -/
theorem findParent_eq_ok {t : FileTree} {path : PathName} {place : Location} {name : String}
    (found : t.findParent path = .ok (place, some name)) :
    t.Leads path (place ++ [name]) ∧ name ∈ path.names ∧ name ≠ "." := by
  unfold findParent at found
  cases begins : t.start path with
  | error fault => simp [bind, Except.bind, begins] at found
  | ok first =>
      simp only [bind, Except.bind, begins] at found
      cases last : path.names.getLast? with
      | none => simp [last] at found
      | some final =>
          rw [last] at found
          cases led : t.follow first path.names.dropLast with
          | error fault => simp [led] at found
          | ok parent =>
              simp only [led] at found
              split at found
              · cases found
              · cases found
              · rename_i directory
                split at found
                · cases found
                · rename_i plain
                  split at found
                  · cases found
                  · rename_i short
                    cases found
                    simp only [not_or] at plain
                    refine ⟨⟨first, begins, ?_⟩, List.mem_of_getLast? last, plain.1⟩
                    obtain ⟨before, spelled⟩ := List.getLast?_eq_some_iff.1 last
                    rw [spelled, List.dropLast_concat] at led
                    rw [spelled]
                    apply follow_append_eq_ok led
                    apply follow_cons_eq_ok_iff.2
                    refine ⟨directory, place ++ [name], ?_, rfl⟩
                    rw [step?, if_neg plain.1, if_neg plain.2, if_neg short]

/-- A file that is made stands where the path leads, and is empty.  No directory stood there. -/
theorem createFile_eq_ok {t t' : FileTree} {path : PathName} {place : Location}
    (made : t.createFile path = .ok (place, t')) :
    t.Leads path place ∧ t.node? place ≠ some .directory ∧ path.endsInSlash = false ∧
      t' = t.write place #[] := by
  unfold createFile at made
  cases parent : t.findParent path with
  | error fault => simp [bind, Except.bind, parent] at made
  | ok found =>
      obtain ⟨around, name?⟩ := found
      cases name? with
      | none => simp [bind, Except.bind, parent] at made
      | some name =>
          simp only [bind, Except.bind, parent] at made
          split at made
          · cases made
          · rename_i other
            split at made
            · cases made
            · rename_i open_
              cases made
              exact ⟨(findParent_eq_ok parent).1, other, eq_false_of_ne_true open_, rfl⟩

/-! ### Making directories -/

/-- Whatever stands in the first tree stands in the second. -/
structure Grows (t t' : FileTree) : Prop where
  here : t'.here = t.here
  keeps : ∀ place node, t.node? place = some node → t'.node? place = some node

namespace Grows

variable {t t' t'' : FileTree}

theorem refl (t : FileTree) : Grows t t := ⟨rfl, fun _ _ stands => stands⟩

theorem trans (first : Grows t t') (second : Grows t' t'') : Grows t t'' where
  here := second.here.trans first.here
  keeps place node := fun stands => second.keeps place node (first.keeps place node stands)

theorem leads (grows : Grows t t') {path : PathName} {place : Location}
    (led : t.Leads path place) : t'.Leads path place :=
  led.of_directories (fun place => grows.keeps place .directory) grows.here

theorem find (grows : Grows t t') {path : PathName} {place : Location} {node : Node}
    (found : t.find path = .ok (place, node)) : t'.find path = .ok (place, node) := by
  obtain ⟨led, stands, ending⟩ := find_eq_ok_iff.1 found
  exact find_eq_ok_iff.2 ⟨grows.leads led, grows.keeps place node stands, ending⟩

end Grows

/-- A directory that is made stands where the path leads, and nothing stood there. -/
theorem makeDirectory_eq_ok {t t' : FileTree} {path : PathName}
    (made : t.makeDirectory path = .ok t') :
    ∃ place, t.Leads path place ∧ t.node? place = none ∧ t' = t.set place .directory ∧
      path.names.filter (· != ".") ≠ [] := by
  unfold makeDirectory at made
  cases parent : t.findParent path with
  | error fault => simp [bind, Except.bind, parent] at made
  | ok found =>
      obtain ⟨around, name?⟩ := found
      cases name? with
      | none => simp [bind, Except.bind, parent] at made
      | some name =>
          simp only [bind, Except.bind, parent] at made
          split at made
          · cases made
          · rename_i free
            cases made
            obtain ⟨led, listed, moves⟩ := findParent_eq_ok parent
            refine ⟨around ++ [name], led, free, rfl, ?_⟩
            exact List.ne_nil_of_mem (List.mem_filter.2 ⟨listed, bne_iff_ne.2 moves⟩)

theorem grows_makeDirectory {t t' : FileTree} {path : PathName}
    (made : t.makeDirectory path = .ok t') : Grows t t' := by
  obtain ⟨goal, -, free, rfl, -⟩ := makeDirectory_eq_ok made
  refine ⟨rfl, ?_⟩
  intro place node stands
  have other : place ≠ goal := by
    rintro rfl
    rw [free] at stands
    cases stands
  rw [node?_set_of_ne other]
  exact stands

/-! ### Directories on the way of a path -/

/-- What is new in the second tree are directories to which the names lead, or the first of
them. -/
structure Paves (t t' : FileTree) (isAbsolute : Bool) (names : List String) : Prop where
  grows : Grows t t'
  made : ∀ place, t'.node? place ≠ t.node? place →
    t.node? place = none ∧ t'.node? place = some .directory ∧
      ∃ way, way <+: names ∧ t'.Leads { isAbsolute, names := way } place

namespace Paves

variable {t t' t'' : FileTree} {isAbsolute : Bool} {names : List String}

theorem refl (t : FileTree) (isAbsolute : Bool) (names : List String) :
    Paves t t isAbsolute names :=
  ⟨.refl t, fun _ changed => absurd rfl changed⟩

theorem trans (first : Paves t t' isAbsolute names) (second : Paves t' t'' isAbsolute names) :
    Paves t t'' isAbsolute names where
  grows := first.grows.trans second.grows
  made place := by
    intro changed
    by_cases again : t''.node? place = t'.node? place
    · rw [again] at changed ⊢
      obtain ⟨free, directory, way, begins, led⟩ := first.made place changed
      exact ⟨free, directory, way, begins, second.grows.leads led⟩
    · obtain ⟨free, directory, way, begins, led⟩ := second.made place again
      refine ⟨?_, directory, way, begins, led⟩
      cases stands : t.node? place with
      | none => rfl
      | some node =>
          rw [first.grows.keeps place node stands] at free
          cases free

end Paves

section Paving

variable {isAbsolute : Bool} {names : List String}

theorem paves_ensureDirectory (t : FileTree) {path : PathName}
    (absolute : path.isAbsolute = isAbsolute) (way : path.names.filter (· != ".") <+: names) :
    Paves t (t.ensureDirectory path).2 isAbsolute names := by
  unfold ensureDirectory
  cases made : t.makeDirectory path with
  | error fault => exact .refl t isAbsolute names
  | ok t' =>
      have grows := grows_makeDirectory made
      obtain ⟨place, led, free, rfl, some_name⟩ := makeDirectory_eq_ok made
      have below : place ≠ [] := by
        rintro rfl
        cases free
      refine ⟨grows, fun other changed => ?_⟩
      by_cases same : other = place
      · subst same
        refine ⟨free, node?_set_self below, _, way, ?_⟩
        obtain ⟨first, begins, followed⟩ := grows.leads led
        refine ⟨first, ?_, follow_without_dots followed⟩
        rw [(start_eq_ok begins).2, ← absolute]
        have some_left : (path.names.filter (· != ".")).isEmpty = false :=
          List.isEmpty_eq_false_iff.2 some_name
        simp only [FileTree.start, PathName.isEmpty, some_left, Bool.and_false, Bool.false_eq_true,
          if_false]
      · exact absurd (node?_set_of_ne same) changed

theorem paves_ensureDirectoryIn (t : FileTree) {path : PathName}
    (absolute : path.isAbsolute = isAbsolute) (way : path.names.filter (· != ".") <+: names)
    {makeParent : Unit → Except FileFault Unit × FileTree}
    (parent : Paves t (makeParent ()).2 isAbsolute names) :
    Paves t (t.ensureDirectoryIn path makeParent).2 isAbsolute names := by
  unfold ensureDirectoryIn
  split
  · cases around : makeParent () with
    | mk answer t' =>
        rw [around] at parent
        cases answer with
        | error fault => exact parent
        | ok done => exact parent.trans (paves_ensureDirectory t' absolute way)
  · exact paves_ensureDirectory t absolute way

theorem paves_makeAlong (t : FileTree) {before : List String}
    (way : before.reverse.filter (· != ".") <+: names) :
    Paves t (t.makeAlong isAbsolute before).2 isAbsolute names := by
  induction before with
  | nil => exact .refl t isAbsolute names
  | cons name before ih =>
      refine paves_ensureDirectoryIn t rfl way (ih ?_)
      refine List.IsPrefix.trans ?_ way
      rw [List.reverse_cons, List.filter_append]
      exact List.prefix_append _ _

end Paving

/-- What directories are made for a path, whether or not all can be, are on its way. -/
theorem paves_makeDirectories (t : FileTree) (path : PathName) :
    Paves t (t.makeDirectories path).2 path.isAbsolute (path.names.filter (· != ".")) := by
  refine paves_ensureDirectoryIn t rfl (List.prefix_refl _) (paves_makeAlong t ?_)
  rw [List.tail_reverse, List.reverse_reverse]
  have plain : ∀ name ∈ (path.names.filter (· != ".")).dropLast, (name != ".") = true :=
    fun name member => (List.mem_filter.1 ((List.dropLast_sublist _).subset member)).2
  rw [List.filter_eq_self.2 plain]
  exact List.dropLast_prefix _

/-- Whatever stood in a tree stands in it when directories have been made, or some of them. -/
theorem grows_makeDirectories (t : FileTree) (path : PathName) :
    Grows t (t.makeDirectories path).2 :=
  (paves_makeDirectories t path).grows

theorem find_ensureDirectory {t t' : FileTree} {path : PathName}
    (made : t.ensureDirectory path = (.ok (), t')) :
    ∃ place, t'.find path = .ok (place, .directory) := by
  unfold ensureDirectory at made
  split at made
  · rename_i t₁ new
    cases made
    have grows := grows_makeDirectory new
    obtain ⟨place, led, free, rfl, -⟩ := makeDirectory_eq_ok new
    have below : place ≠ [] := by
      rintro rfl
      cases free
    exact ⟨place, find_eq_ok_iff.2
      ⟨grows.leads led, node?_set_self below, fun other => absurd rfl other⟩⟩
  · split at made
    · rename_i there
      cases made
      unfold isDirectory at there
      split at there
      · rename_i place found
        exact ⟨place, found⟩
      · cases there
    · cases made

/-- Once the directories for a path have been made, it leads to a directory. -/
theorem find_makeDirectories {t t' : FileTree} {path : PathName}
    (made : t.makeDirectories path = (.ok (), t')) :
    ∃ place, t'.find path = .ok (place, .directory) := by
  unfold makeDirectories ensureDirectoryIn at made
  split at made
  · split at made
    · cases made
    · exact find_ensureDirectory made
  · exact find_ensureDirectory made

/-! ### Changing files -/

/-- The same directories stand in both trees. -/
structure SameDirectories (t t' : FileTree) : Prop where
  here : t'.here = t.here
  directories : ∀ place, t'.node? place = some .directory ↔ t.node? place = some .directory

namespace SameDirectories

variable {t t' t'' : FileTree}

theorem refl (t : FileTree) : SameDirectories t t := ⟨rfl, fun _ => .rfl⟩

theorem trans (first : SameDirectories t t') (second : SameDirectories t' t'') :
    SameDirectories t t'' where
  here := second.here.trans first.here
  directories place := (second.directories place).trans (first.directories place)

/-- A path leads to the same location in both trees. -/
theorem leads_iff (same : SameDirectories t t') {path : PathName} {place : Location} :
    t'.Leads path place ↔ t.Leads path place :=
  ⟨fun led => led.of_directories (fun place => (same.directories place).1) same.here.symm,
    fun led => led.of_directories (fun place => (same.directories place).2) same.here⟩

/-- A file can be made in the one tree where it can be made in the other. -/
theorem createFile (same : SameDirectories t t') {path : PathName} {place : Location}
    {made : FileTree} (creatable : t.createFile path = .ok (place, made)) :
    t'.createFile path = .ok (place, t'.write place #[]) := by
  unfold FileTree.createFile at creatable ⊢
  cases parent : t.findParent path with
  | error fault => simp [bind, Except.bind, parent] at creatable
  | ok found =>
      have parent' := findParent_of_directories (fun place => (same.directories place).2) parent
        same.here
      obtain ⟨around, name?⟩ := found
      cases name? with
      | none => simp [bind, Except.bind, parent] at creatable
      | some name =>
          simp only [bind, Except.bind, parent, parent'] at creatable ⊢
          split at creatable
          · cases creatable
          · rename_i other
            split at creatable
            · cases creatable
            · rename_i open_
              cases creatable
              split
              · rename_i directory
                exact absurd ((same.directories _).1 directory) other
              · rw [if_neg open_]

end SameDirectories

/-- The root is a directory. -/
theorem ne_nil_of_no_directory {t : FileTree} {place : Location}
    (no_directory : t.node? place ≠ some .directory) : place ≠ [] := by
  rintro rfl
  exact no_directory rfl

theorem sameDirectories_write {t : FileTree} {place : Location}
    (no_directory : t.node? place ≠ some .directory) (content : Content) :
    SameDirectories t (t.write place content) := by
  refine ⟨rfl, fun other => ?_⟩
  by_cases same : other = place
  · subst same
    rw [write, node?_set_self (ne_nil_of_no_directory no_directory)]
    simp [no_directory]
  · rw [write, node?_set_of_ne same]

/-- A file that can be read can be read when a file has been written, if perhaps with other
bytes. -/
theorem readFile_write {t : FileTree} {path : PathName} {place : Location} {content : Content}
    (read : t.readFile path = .ok content) (no_directory : t.node? place ≠ some .directory)
    (written : Content) : ∃ content', (t.write place written).readFile path = .ok content' := by
  obtain ⟨goal, found⟩ := readFile_eq_ok_iff.1 read
  obtain ⟨led, stands, ending⟩ := find_eq_ok_iff.1 found
  have led' := (sameDirectories_write no_directory written).leads_iff.2 led
  have open_ : path.endsInSlash = false := ending Node.noConfusion
  by_cases same : goal = place
  · subst same
    exact ⟨written, readFile_eq_ok_iff.2 ⟨goal, find_eq_ok_iff.2
      ⟨led', node?_set_self (ne_nil_of_no_directory no_directory), fun _ => open_⟩⟩⟩
  · exact ⟨content, readFile_eq_ok_iff.2 ⟨goal, find_eq_ok_iff.2
      ⟨led', (node?_set_of_ne same).trans stands, fun _ => open_⟩⟩⟩

theorem sameDirectories_remove {t : FileTree} {place : Location}
    (no_directory : t.node? place ≠ some .directory) :
    SameDirectories t (t.remove place) := by
  refine ⟨rfl, fun other => ?_⟩
  by_cases same : other = place
  · subst same
    rw [node?_remove_self (ne_nil_of_no_directory no_directory)]
    simp [no_directory]
  · rw [node?_remove_of_ne same]

/-- The trees have the same directories, and differ only in files at such places. -/
structure Alters (t t' : FileTree) (places : Location → Prop) : Prop where
  directories : SameDirectories t t'
  elsewhere : ∀ place, ¬ places place → t'.node? place = t.node? place

namespace Alters

variable {t t' t'' : FileTree} {places : Location → Prop}

theorem refl (t : FileTree) (places : Location → Prop) : Alters t t places :=
  ⟨.refl t, fun _ _ => rfl⟩

theorem trans (first : Alters t t' places) (second : Alters t' t'' places) :
    Alters t t'' places where
  directories := first.directories.trans second.directories
  elsewhere place other := (second.elsewhere place other).trans (first.elsewhere place other)

theorem mono (alters : Alters t t' places) {more : Location → Prop}
    (among : ∀ place, places place → more place) : Alters t t' more :=
  ⟨alters.directories, fun place other => alters.elsewhere place (mt (among place) other)⟩

/-- Where the trees differ, no directory stands in either. -/
theorem no_directory (alters : Alters t t' places) {place : Location}
    (changed : t'.node? place ≠ t.node? place) :
    places place ∧ t.node? place ≠ some .directory ∧ t'.node? place ≠ some .directory := by
  refine ⟨?_, ?_, ?_⟩
  · exact Classical.byContradiction fun other => changed (alters.elsewhere place other)
  · intro directory
    exact changed (((alters.directories.directories place).2 directory).trans directory.symm)
  · intro directory
    exact changed (directory.trans ((alters.directories.directories place).1 directory).symm)

end Alters

theorem alters_write {t : FileTree} {place : Location}
    (no_directory : t.node? place ≠ some .directory) (content : Content) :
    Alters t (t.write place content) (· = place) :=
  ⟨sameDirectories_write no_directory content, fun _ other => node?_set_of_ne other⟩

theorem alters_remove {t : FileTree} {place : Location}
    (no_directory : t.node? place ≠ some .directory) : Alters t (t.remove place) (· = place) :=
  ⟨sameDirectories_remove no_directory, fun _ other => node?_remove_of_ne other⟩

end BackupRestore.FileTree
