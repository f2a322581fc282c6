/-
Module: BackupRestore.Proofs.Outcomes
Purpose: What the report of a restore says about the files that it leaves.
Main exports: Command.Job.granted, Command.selectPackages_eq_granted, Command.Job.Site,
  Command.Job.Site.Settled, Command.Job.Site.serveAll_of_kept, Command.PackageResult.TellsOf,
  Command.restorePackages_reports_list
-/
import BackupRestore.Command.List
import BackupRestore.Proofs.Confinement

namespace BackupRestore.Command

/-!
As long as no package's file is the archive itself, each look at the archive finds the bytes that
the first one found.  Then a restore comes to just the packages that a list of them shows, and what
becomes of one is told by the archive and its name alone.  Once a package is settled
(`Job.Site.Settled`) it stays so: whatever is served behind it has another file, or is the same
package once more, and then its file gets the same bytes.
-/

/-! ### The packages that a job comes to -/

/-- The packages that have data in the archive, first to last, up to one for whose stream there are
no chunks of the size that is asked for. -/
def Job.granted (j : Job) (content : Except IoError Content) :
    List String → List PackageDescription × Option Misuse
  | [] => ([], none)
  | package :: rest =>
      match choiceIn j.layout content package with
      | none => j.granted content rest
      | some d =>
          match answerFor j.chunkSize d with
          | .error misuse => ([], some misuse)
          | .ok _ => (d :: (j.granted content rest).1, (j.granted content rest).2)

section Granted

variable {j : Job} {content : Except IoError Content}

theorem Job.choice_of_granted {packages : List String} :
    ∀ d ∈ (j.granted content packages).1, d.package ∈ packages ∧
      choiceIn j.layout content d.package = some d := by
  fun_induction granted j content packages with
  | case1 => exact fun d none_given => absurd none_given List.not_mem_nil
  | case2 package rest passed ih =>
      intro d given
      obtain ⟨listed, chosen⟩ := ih d given
      exact ⟨List.mem_cons_of_mem _ listed, chosen⟩
  | case3 package rest d chosen misuse refused =>
      exact fun d none_given => absurd none_given List.not_mem_nil
  | case4 package rest d chosen answer admitted ih =>
      intro d' given
      rcases List.mem_cons.1 given with rfl | later
      · obtain ⟨-, -, same, -⟩ := choiceIn_eq_some chosen
        rw [same]
        exact ⟨List.mem_cons_self, chosen⟩
      · obtain ⟨listed, chosen'⟩ := ih d' later
        exact ⟨List.mem_cons_of_mem _ listed, chosen'⟩

/-- A package that is given is given alone as well. -/
theorem Job.granted_alone {packages : List String} :
    ∀ d ∈ (j.granted content packages).1, j.granted content [d.package] = ([d], none) := by
  fun_induction granted j content packages with
  | case1 => exact fun d none_given => absurd none_given List.not_mem_nil
  | case2 package rest passed ih => exact ih
  | case3 package rest d chosen misuse refused =>
      exact fun d none_given => absurd none_given List.not_mem_nil
  | case4 package rest d chosen answer admitted ih =>
      intro d' given
      rcases List.mem_cons.1 given with rfl | later
      · obtain ⟨-, -, same, -⟩ := choiceIn_eq_some chosen
        simp only [granted, same, chosen, admitted]
      · exact ih d' later

/-- A job is broken off if it comes to a full stream for which there are no chunks. -/
theorem Job.granted_breaks_off_iff {packages : List String} :
    (j.granted content packages).2 ≠ none ↔ FullStream.chunkLimit ≤ j.chunkSize ∧
      ∃ package ∈ packages,
        choiceIn j.layout content package = some { package, mode := .fullStream } := by
  fun_induction granted j content packages with
  | case1 => simp
  | case2 package rest passed ih => simp [ih, passed]
  | case3 package rest d chosen misuse refused =>
      unfold answerFor at refused
      split at refused
      · rename_i both
        obtain ⟨-, -, same, -⟩ := choiceIn_eq_some chosen
        have stream : d = { package, mode := .fullStream } := by
          rw [← same, ← both.1]
        simp [both.2, chosen, stream]
      · cases refused
  | case4 package rest d chosen answer admitted ih =>
      rw [ih]
      unfold answerFor at admitted
      split at admitted
      · cases admitted
      · rename_i fits
        apply and_congr_right
        intro large
        have other : choiceIn j.layout content package ≠ some { package, mode := .fullStream } := by
          intro stream
          rw [chosen] at stream
          cases stream
          exact fits ⟨rfl, large⟩
        simp [other]

/-- A session gives just these packages. -/
theorem selectPackages_eq_granted {t : Transport} {s : Session} {m : Medium}
    {remaining asked : List String} (begun : t.session = some s)
    (faces : s.Faces j.layout j.chunkSize remaining) (shows : m.Shows content)
    (enough : remaining.length ≤ asked.length) :
    selectPackages t m asked = j.granted content remaining := by
  induction remaining generalizing t s m asked with
  | nil =>
      cases asked with
      | nil => rfl
      | cons _ asked =>
          obtain ⟨s', m', given⟩ := Session.nextPackage_of_faces_nil faces m
          have given := Transport.nextPackage_of_session begun given
          simp only [selectPackages, given]
          rfl
  | cons package rest ih =>
      obtain ⟨first, asked, rfl⟩ := List.exists_cons_of_length_pos
        (Nat.lt_of_lt_of_le (Nat.succ_pos _) enough)
      have enough_left : rest.length ≤ asked.length := Nat.le_of_succ_le_succ enough
      cases choice : choiceIn j.layout content package with
      | none =>
          obtain ⟨s', m', passed, faces', shows'⟩ :=
            Transport.nextPackage_of_passed begun faces shows choice
          let t' : Transport := { t with session := some s' }
          have unseen : selectPackages t m (first :: asked) =
              selectPackages t' m' (first :: asked) := by
            simp only [selectPackages, passed, t']
          rw [unseen]
          simp only [Job.granted, choice]
          exact ih (t := t') rfl faces' shows' (Nat.le_succ_of_le enough_left)
      | some d =>
          obtain ⟨s', m', given, faces', shows', -⟩ :=
            Transport.nextPackage_of_chosen begun faces shows choice
          simp only [selectPackages, given, Job.granted, choice]
          rcases answerFor_cases j.chunkSize d with refused | admitted
          · rw [refused]
          · rw [admitted]
            let t' : Transport := { t with session := some s' }
            simp only [ih (t := t') rfl faces' shows' enough_left, t']

end Granted

/-- A list of packages shows those that a job would come to. -/
theorem listPackages_eq {environment : String → Option String} {files : FileTree}
    {s : SourceOptions} {t : Transport} (opened : openTransport environment files s = .ok t)
    (out : String) (packages : List String) :
    let given := (Job.of t s.archive out).granted (Medium.contentOfFile files s.archive) packages
    (listPackages environment files s packages).output = given.1.map packageLine ∧
      (listPackages environment files s packages).code =
        if given.2 = none then 0 else misuseCode := by
  intro given
  obtain ⟨-, not_begun⟩ := openTransport_eq_ok opened
  have faces : (Session.start t.settings t.currentToken packages).Faces
      (Job.of t s.archive out).layout (Job.of t s.archive out).chunkSize packages :=
    ⟨rfl, rfl, 0, rfl, List.drop_zero⟩
  have selected : selectPackages
      { t with session := some (.start t.settings t.currentToken packages) }
      (.ofFile files s.archive) packages = given :=
    selectPackages_eq_granted rfl faces (.ofFile files s.archive) (Nat.le_refl _)
  simp only [listPackages, opened, Transport.start, not_begun, selected]
  rcases given with ⟨found, _ | misuse⟩ <;> exact ⟨rfl, rfl⟩

/-! ### Packages beside the archive -/

/-- What is shown for a package of which the file could be made. -/
def outcomeOf : Except PackageFailure (Outcome × List UInt8) → Outcome
  | .ok (outcome, _) => outcome
  | .error why => .failed why

/-- What then stands where its file was made. -/
def fileOf : Except PackageFailure (Outcome × List UInt8) → Option Node
  | .ok (_, bytes) => some (.file bytes.toArray)
  | .error _ => none

/-- The package of the result, as it was chosen. -/
def PackageResult.description (r : PackageResult) : PackageDescription where
  package := r.package
  mode := r.mode

namespace Job

/-- The files at the beginning of a job: where the archive stands, and the directory that receives
files. -/
structure Site (j : Job) where
  files : FileTree
  place : Location
  content : Content
  directory : Location
  archive : files.find (.ofText j.archive) = .ok (place, .file content)
  out : files.Leads (.ofText j.out) directory

namespace Site

variable {j : Job} (site : j.Site)

/-- Where the file of a package is. -/
def fileAt (d : PackageDescription) : Location :=
  site.directory ++ [fileName d.package d.mode]

/-- The file of the package is not the archive. -/
def Spares (d : PackageDescription) : Prop :=
  isFileName d.package = true →
    ¬ site.files.Leads (.ofText (outputPath j.out d.package d.mode)) site.place

/-- The archive still stands, among the same directories. -/
structure Kept (files : FileTree) : Prop where
  directories : site.files.SameDirectories files
  archive : files.node? site.place = some (.file site.content)

/-- What is shown for a package is what has become of its file. -/
inductive Settled [Zip.Codecs] (files : FileTree) (r : PackageResult) : Prop where
  | misnamed (bad_name : isFileName r.package = false) (outcome : r.outcome = .failed .badName)
  | unmade (named : isFileName r.package = true)
      (unmakeable : ∀ file,
        site.files.createFile (.ofText (outputPath j.out r.package r.mode)) ≠ .ok file)
      {path : String} {fault : FileFault} (outcome : r.outcome = .failed (.fileUnmade path fault))
  | moved (named : isFileName r.package = true)
      (led : site.files.Leads (.ofText (outputPath j.out r.package r.mode))
        (site.fileAt r.description))
      (outcome : r.outcome = outcomeOf (j.held (.ok site.content) r.description))
      (stands : files.node? (site.fileAt r.description) =
        fileOf (j.held (.ok site.content) r.description))

variable {site} {files : FileTree} {d : PackageDescription}

theorem kept_files : site.Kept site.files where
  directories := .refl _
  archive := (FileTree.find_eq_ok_iff.1 site.archive).2.1

theorem Kept.contentOfFile (kept : site.Kept files) :
    Medium.contentOfFile files j.archive = .ok site.content := by
  obtain ⟨led, -, ending⟩ := FileTree.find_eq_ok_iff.1 site.archive
  have found := FileTree.find_eq_ok_iff.2 ⟨kept.directories.leads_iff.2 led, kept.archive, ending⟩
  have read := FileTree.readFile_eq_ok_iff.2 ⟨_, found⟩
  simp only [Medium.contentOfFile, read]

theorem Kept.alters {files' : FileTree} {places : Location → Prop} (kept : site.Kept files)
    (alters : files.Alters files' places) (elsewhere : ¬ places site.place) :
    site.Kept files' where
  directories := kept.directories.trans alters.directories
  archive := (alters.elsewhere site.place elsewhere).trans kept.archive

/-- A package whose file is not the archive leaves the archive alone. -/
theorem Kept.serve [Zip.Codecs] (kept : site.Kept files) (spares : site.Spares d) :
    site.Kept (j.serve files d).2 :=
  kept.alters (j.alters_serve files d) fun ⟨named, led⟩ =>
    spares named (kept.directories.leads_iff.1 led)

/-- Different packages, and different data, have different files. -/
theorem fileAt_injective {d' : PackageDescription} (some_data : d.mode ≠ .none)
    (some_data' : d'.mode ≠ .none) (same : site.fileAt d = site.fileAt d') : d = d' := by
  obtain ⟨-, name⟩ := List.append_inj' same rfl
  obtain ⟨package, mode⟩ := fileName_injective some_data some_data' (List.singleton_inj.1 name)
  cases d
  cases d'
  cases package
  cases mode
  rfl

/-- What becomes of a package beside the archive, and of its file, is told by the archive. -/
theorem serve_of_kept [Zip.Codecs] (kept : site.Kept files) (spares : site.Spares d) :
    ((j.serve files d).2 = files ∧
      site.Settled files
        { package := d.package, mode := d.mode, outcome := (j.serve files d).1 }) ∨
    (isFileName d.package = true ∧
      site.files.Leads (.ofText (outputPath j.out d.package d.mode)) (site.fileAt d) ∧
      (j.serve files d).1 = outcomeOf (j.held (.ok site.content) d) ∧
      files.Alters (j.serve files d).2 (· = site.fileAt d) ∧
      (j.serve files d).2.node? (site.fileAt d) = fileOf (j.held (.ok site.content) d)) := by
  rcases j.serve_cases files d with
    ⟨bad_name, served⟩ | ⟨named, fault, unmade, served⟩ | ⟨named, place, made, served⟩
  · rw [served]
    exact Or.inl ⟨rfl, .misnamed bad_name rfl⟩
  · rw [served]
    refine Or.inl ⟨rfl, .unmade named ?_ rfl⟩
    rintro ⟨place, files'⟩ made
    rw [kept.directories.createFile made] at unmade
    cases unmade
  · right
    obtain ⟨led, no_directory, -, -⟩ := FileTree.createFile_eq_ok made
    have led_first := kept.directories.leads_iff.1 led
    have here : place = site.fileAt d := FileTree.leads_outputPath named site.out led_first
    subst here
    have emptied := FileTree.alters_write no_directory #[]
    have still : (files.write (site.fileAt d) #[]).node? (site.fileAt d) ≠ some .directory :=
      fun directory => no_directory ((emptied.directories.directories _).1 directory)
    have below := FileTree.ne_nil_of_no_directory no_directory
    have elsewhere : site.place ≠ site.fileAt d := by
      intro same
      rw [← same] at led_first
      exact spares named led_first
    have content := (kept.alters emptied elsewhere).contentOfFile
    rw [served]
    refine ⟨named, led_first, ?_, emptied.trans (j.alters_fill still d), ?_⟩
    · rw [fill, content]
      cases j.held (.ok site.content) d <;> rfl
    · rw [fill, content]
      cases j.held (.ok site.content) d with
      | ok moved => exact FileTree.node?_set_self below
      | error why => exact FileTree.node?_remove_self below

/-- A package that has been served is settled. -/
theorem settled_of_serve [Zip.Codecs] (kept : site.Kept files) (spares : site.Spares d) :
    site.Settled (j.serve files d).2
      { package := d.package, mode := d.mode, outcome := (j.serve files d).1 } := by
  rcases serve_of_kept kept spares with
    ⟨same, settled⟩ | ⟨named, led, outcome, -, stands⟩
  · rw [same]
    exact settled
  · exact .moved named led outcome stands

/-- A package that is settled stays so when another is served, or the same once more. -/
theorem Settled.serve [Zip.Codecs] {r : PackageResult} (settled : site.Settled files r)
    (kept : site.Kept files) (spares : site.Spares d) (some_data : r.mode ≠ .none)
    (some_data' : d.mode ≠ .none) : site.Settled (j.serve files d).2 r := by
  cases settled with
  | misnamed bad_name outcome => exact .misnamed bad_name outcome
  | unmade named unmakeable outcome => exact .unmade named unmakeable outcome
  | moved named led outcome stands =>
      apply Settled.moved named led outcome
      rcases serve_of_kept kept spares with ⟨same, -⟩ | ⟨-, -, -, alters, stands'⟩
      · rw [same]
        exact stands
      · by_cases here : site.fileAt r.description = site.fileAt d
        · rw [fileAt_injective some_data some_data' here]
          exact stands'
        · rw [alters.elsewhere _ here]
          exact stands

/-- A job comes to the packages that the archive gives, in their order, and leaves each of them
settled.  The induction is on the packages; the archive is kept by each step, and so are the
packages that have been settled before. -/
theorem serveAll_of_kept [Zip.Codecs] (kept : site.Kept files) {packages : List String}
    (spares : ∀ d ∈ (j.granted (.ok site.content) packages).1, site.Spares d) :
    (j.serveAll files packages).1.map PackageResult.description =
        (j.granted (.ok site.content) packages).1 ∧
      (j.serveAll files packages).2.1 = (j.granted (.ok site.content) packages).2 ∧
      site.Kept (j.serveAll files packages).2.2 ∧
      (∀ r, r.mode ≠ .none → site.Settled files r →
        site.Settled (j.serveAll files packages).2.2 r) ∧
      ∀ r ∈ (j.serveAll files packages).1, site.Settled (j.serveAll files packages).2.2 r := by
  induction packages generalizing files with
  | nil =>
      exact ⟨rfl, rfl, kept, fun _ _ settled => settled,
        fun r none_served => absurd none_served List.not_mem_nil⟩
  | cons package rest ih =>
      have choice : j.choice? files package = choiceIn j.layout (.ok site.content) package := by
        rw [choice?, kept.contentOfFile]
      cases chosen : choiceIn j.layout (.ok site.content) package with
      | none =>
          simp only [serveAll, granted, choice, chosen] at spares ⊢
          exact ih kept spares
      | some d =>
          obtain ⟨-, -, -, -, some_data⟩ := choiceIn_eq_some chosen
          cases answer : answerFor j.chunkSize d with
          | error misuse =>
              simp only [serveAll, granted, choice, chosen, answer]
              exact ⟨rfl, trivial, kept, fun _ _ settled => settled,
                fun r none_served => absurd none_served List.not_mem_nil⟩
          | ok next =>
              simp only [serveAll, granted, choice, chosen, answer] at spares ⊢
              have spared := spares d List.mem_cons_self
              obtain ⟨order, misuse, kept_then, stay, settled⟩ := ih (kept.serve spared)
                fun d' later => spares d' (List.mem_cons_of_mem _ later)
              refine ⟨?_, misuse, kept_then, ?_, ?_⟩
              · rw [List.map_cons, order]
                rfl
              · intro r some_data' before
                exact stay r some_data' (before.serve kept spared some_data' some_data)
              · intro r served
                rcases List.mem_cons.1 served with rfl | later
                · exact stay _ some_data (settled_of_serve kept spared)
                · exact settled r later

end Site
end Job

/-! ### What a line tells -/

/-- The path of a package's file leads to a file if it leads anywhere. -/
theorem endsInSlash_outputPath (out package : String) (mode : RestoreMode) :
    (PathName.ofText (outputPath out package mode)).endsInSlash = false := by
  obtain ⟨before, spelled, -⟩ := toList_outputPath out package mode
  have last : (outputPath out package mode).toList.getLast? ≠ some '/' := by
    rw [spelled, toList_fileName]
    cases mode <;> simp [extension]
  exact beq_eq_false_iff_ne.2 last

/-- The line tells of the archive with the bytes `c` and of the file that the package has now: the
file holds the frames of all the package's records in their order, or its whole stream, or, if the
package failed and its name is accepted, there is no such file. -/
def PackageResult.TellsOf [Zip.Codecs] (r : PackageResult) (c : Content) (layout : Layout)
    (files : FileTree) (out : String) : Prop :=
  let path := PathName.ofText (outputPath out r.package r.mode)
  match r.outcome with
  | .records n =>
      r.mode = .keyValue ∧ ∃ directory records,
        Zip.Directory.read c = .ok directory ∧
        records = Transfer.recordsIn c (some Medium.fileReach)
          (.under (layout.recordsOf r.package)) directory.entries.toList ∧
        (∀ e ∈ directory.entries.toList,
          (Pattern.under (layout.recordsOf r.package)).selects e = true →
            e.Spells c (some Medium.fileReach) (e.record c (some Medium.fileReach))) ∧
        records.length = n ∧ files.readFile path = .ok (records.flatMap Record.frame).toArray
  | .streamed n =>
      r.mode = .fullStream ∧ ∃ directory e bytes,
        Zip.Directory.read c = .ok directory ∧
        directory.entries.toList.find? (Pattern.exactly (layout.streamPath r.package)).selects =
          some e ∧
        e.payload c (some Medium.fileReach) = .ok bytes ∧
        bytes.length = n ∧ files.readFile path = .ok bytes.toArray
  | .failed _ => isFileName r.package = true → files.find path = .error .notFound

/-- What can be moved of a full stream is the payload of the first entry with its path. -/
theorem streamHeldIn_eq_ok [Zip.Codecs] {c : Content} {reach : Option Nat} {layout : Layout}
    {package : String} {bytes : List UInt8}
    (held : streamHeldIn c reach layout package = .ok bytes) :
    ∃ directory e, Zip.Directory.read c = .ok directory ∧
      directory.entries.toList.find? (Pattern.exactly (layout.streamPath package)).selects =
        some e ∧ e.payload c reach = .ok bytes := by
  unfold streamHeldIn at held
  split at held
  · cases held
  · cases held
  · rename_i a found located
    obtain ⟨-, read, e, start, first, here, -, -⟩ := locateIn_eq_some located
    rw [here] at held
    simp only at held
    split at held
    · cases held
    · refine ⟨a.directory, e, read, first, ?_⟩
      cases payload : e.payload c reach with
      | error cause =>
          rw [payload] at held
          cases held
      | ok value =>
          rw [payload] at held
          cases held
          rfl

/-- A line tells of what has become of its package's file. -/
theorem Job.tellsOf_of_moved [Zip.Codecs] {j : Job} {c : Content} {files : FileTree}
    {r : PackageResult} (some_data : r.mode ≠ .none) {place : Location}
    (led : files.Leads (.ofText (outputPath j.out r.package r.mode)) place)
    (outcome : r.outcome = outcomeOf (j.held (.ok c) r.description))
    (stands : files.node? place = fileOf (j.held (.ok c) r.description)) :
    r.TellsOf c j.layout files j.out := by
  have read : ∀ bytes : List UInt8, files.node? place = some (.file bytes.toArray) →
      files.readFile (.ofText (outputPath j.out r.package r.mode)) = .ok bytes.toArray :=
    fun bytes file => FileTree.readFile_eq_ok_iff.2 ⟨place, FileTree.find_eq_ok_iff.2
      ⟨led, file, fun _ => endsInSlash_outputPath _ _ _⟩⟩
  have gone : files.node? place = none →
      files.find (.ofText (outputPath j.out r.package r.mode)) = .error .notFound := by
    intro nothing
    rw [FileTree.find_of_leads led, nothing]
  unfold PackageResult.TellsOf
  rw [outcome]
  unfold held at stands ⊢
  by_cases full : r.mode = .fullStream
  · have full' : r.description.mode = .fullStream := full
    simp only [full', if_true] at stands ⊢
    cases held : streamHeldIn c (some Medium.fileReach) j.layout r.description.package with
    | ok bytes =>
        rw [held] at stands
        obtain ⟨directory, e, listed, first, payload⟩ := streamHeldIn_eq_ok held
        exact ⟨full, directory, e, bytes, listed, first, payload, rfl, read bytes stands⟩
    | error status =>
        rw [held] at stands
        cases status <;> exact fun _ => gone stands
  · have records : r.mode = .keyValue := by
      cases mode : r.mode with
      | none => exact absurd mode some_data
      | keyValue => rfl
      | fullStream => exact absurd mode full
    have not_full : r.description.mode ≠ .fullStream := full
    simp only [not_full, if_false] at stands ⊢
    cases held : recordsHeldIn c (some Medium.fileReach) j.layout r.description.package with
    | some held_records =>
        rw [held] at stands
        obtain ⟨directory, listed, passable, rfl⟩ := recordsHeldIn_eq_some_iff.1 held
        refine ⟨records, directory, _, listed, rfl, ?_, rfl, read _ stands⟩
        intro e member selected
        obtain ⟨record, spells, -⟩ := (passable e member).2 selected
        rw [spells.record]
        exact spells
    | none =>
        rw [held] at stands
        exact fun _ => gone stands

/-- The archive does not have the package's data whole: some record of it cannot be moved, or its
stream breaks off or is refused. -/
def Lacking [Zip.Codecs] (c : Content) (layout : Layout) (d : PackageDescription) : Prop :=
  (d.mode = .keyValue ∧ recordsHeldIn c (some Medium.fileReach) layout d.package = none) ∨
    (d.mode = .fullStream ∧
      ∃ status, streamHeldIn c (some Medium.fileReach) layout d.package = .error status)

/-- What is due for a package is a failure exactly if the archive does not have its data whole. -/
theorem Job.isFailure_of_held [Zip.Codecs] (j : Job) (c : Content) {d : PackageDescription}
    (some_data : d.mode ≠ .none) :
    (outcomeOf (j.held (.ok c) d)).isFailure = true ↔
      Lacking c j.layout d := by
  unfold held Lacking
  cases mode : d.mode with
  | none => exact absurd mode some_data
  | keyValue =>
      simp only [reduceCtorEq, if_false, true_and, false_and, or_false]
      cases held : recordsHeldIn c (some Medium.fileReach) j.layout d.package with
      | some records => simp [outcomeOf, Outcome.isFailure]
      | none => simp [outcomeOf, Outcome.isFailure]
  | fullStream =>
      simp only [reduceCtorEq, if_true, true_and, false_and, false_or]
      cases held : streamHeldIn c (some Medium.fileReach) j.layout d.package with
      | ok bytes => simp [outcomeOf, Outcome.isFailure]
      | error status => cases status <;> simp [outcomeOf, Outcome.isFailure]

/-! ### Packages that are settled -/

/-- The file of the package can be made, if its name is accepted. -/
def Job.Site.Makes {j : Job} (site : j.Site) (r : PackageResult) : Prop :=
  isFileName r.package = true →
    ∃ file, site.files.createFile (.ofText (outputPath j.out r.package r.mode)) = .ok file

namespace Job.Site.Settled

variable [Zip.Codecs] {j : Job} {site : j.Site} {after after' : FileTree} {r r' : PackageResult}

/-- If its file can be made, a package that is settled has been refused for its name, or its file
is as it is due. -/
theorem cases_of_makes (settled : site.Settled after r) (makes : site.Makes r) :
    (isFileName r.package = false ∧ r.outcome = .failed .badName) ∨
    (isFileName r.package = true ∧
      site.files.Leads (.ofText (outputPath j.out r.package r.mode))
        (site.fileAt r.description) ∧
      r.outcome = outcomeOf (j.held (.ok site.content) r.description) ∧
      after.node? (site.fileAt r.description) =
        fileOf (j.held (.ok site.content) r.description)) := by
  cases settled with
  | misnamed bad_name outcome => exact Or.inl ⟨bad_name, outcome⟩
  | unmade named unmakeable outcome =>
      obtain ⟨file, made⟩ := makes named
      exact absurd made (unmakeable file)
  | moved named led outcome stands => exact Or.inr ⟨named, led, outcome, stands⟩

/-- The line of a package that is settled tells of its file. -/
theorem tellsOf (settled : site.Settled after r) (makes : site.Makes r) (kept : site.Kept after)
    (some_data : r.mode ≠ .none) : r.TellsOf site.content j.layout after j.out := by
  rcases settled.cases_of_makes makes with ⟨bad_name, outcome⟩ | ⟨-, led, outcome, stands⟩
  · unfold PackageResult.TellsOf
    rw [outcome]
    exact fun named => absurd named (by rw [bad_name]; decide)
  · exact tellsOf_of_moved some_data (kept.directories.leads_iff.2 led) outcome stands

/-- It shows a failure exactly if the package's name is refused, or its data is not there whole. -/
theorem isFailure_iff (settled : site.Settled after r) (makes : site.Makes r)
    (some_data : r.mode ≠ .none) :
    r.outcome.isFailure = true ↔
      isFileName r.package = false ∨ Lacking site.content j.layout r.description := by
  rcases settled.cases_of_makes makes with ⟨bad_name, outcome⟩ | ⟨named, -, outcome, -⟩
  · rw [outcome, bad_name]
    simp [Outcome.isFailure]
  · rw [outcome, isFailure_of_held j site.content some_data, named]
    simp

/-- Wherever the same package is settled, it has the same result. -/
theorem result_eq (settled : site.Settled after r) (settled' : site.Settled after' r')
    (same : r'.description = r.description) (makes : site.Makes r) : r' = r := by
  obtain ⟨package, mode, outcome⟩ := r
  obtain ⟨package', mode', outcome'⟩ := r'
  cases same
  have makes' : site.Makes { package, mode, outcome := outcome' } := makes
  rcases settled.cases_of_makes makes with ⟨bad_name, told⟩ | ⟨named, -, told, -⟩ <;>
    rcases settled'.cases_of_makes makes' with ⟨bad_name', told'⟩ | ⟨named', -, told', -⟩
  · exact congrArg _ (told'.trans told.symm)
  · exact absurd named' (ne_true_of_eq_false bad_name)
  · exact absurd named (ne_true_of_eq_false bad_name')
  · exact congrArg _ (told'.trans told.symm)

/-- Wherever it is settled, it has the same file. -/
theorem find_eq (settled : site.Settled after r) (settled' : site.Settled after' r)
    (kept : site.Kept after) (kept' : site.Kept after') (makes : site.Makes r)
    (named : isFileName r.package = true) :
    after'.find (.ofText (outputPath j.out r.package r.mode)) =
      after.find (.ofText (outputPath j.out r.package r.mode)) := by
  rcases settled.cases_of_makes makes with ⟨bad_name, -⟩ | ⟨-, led, -, stands⟩
  · exact absurd named (ne_true_of_eq_false bad_name)
  · rcases settled'.cases_of_makes makes with ⟨bad_name, -⟩ | ⟨-, -, -, stands'⟩
    · exact absurd named (ne_true_of_eq_false bad_name)
    · rw [FileTree.find_of_leads (kept.directories.leads_iff.2 led),
        FileTree.find_of_leads (kept'.directories.leads_iff.2 led), stands, stands']

end Job.Site.Settled

/-- What becomes of a package among others is what becomes of it alone. -/
theorem Job.Site.serveAll_alone [Zip.Codecs] {j : Job} {site : j.Site} {packages : List String}
    (spares : ∀ d ∈ (j.granted (.ok site.content) packages).1, site.Spares d)
    {r : PackageResult} (served : r ∈ (j.serveAll site.files packages).1)
    (makes : site.Makes r) :
    (j.serveAll site.files [r.package]).1 = [r] ∧
      (isFileName r.package = true →
        (j.serveAll site.files [r.package]).2.2.find
            (.ofText (outputPath j.out r.package r.mode)) =
          (j.serveAll site.files packages).2.2.find
            (.ofText (outputPath j.out r.package r.mode))) := by
  obtain ⟨order, -, kept, -, settled⟩ := serveAll_of_kept kept_files spares
  have given : r.description ∈ (j.granted (.ok site.content) packages).1 := by
    rw [← order]
    exact List.mem_map_of_mem served
  have alone : j.granted (.ok site.content) [r.package] = ([r.description], none) :=
    granted_alone _ given
  have spares_alone : ∀ d ∈ (j.granted (.ok site.content) [r.package]).1, site.Spares d := by
    rw [alone]
    intro d only
    rw [List.mem_singleton.1 only]
    exact spares _ given
  obtain ⟨order', -, kept', -, settled'⟩ := serveAll_of_kept kept_files spares_alone
  rw [alone] at order'
  obtain ⟨r', rest, served_alone, same, nothing⟩ := List.map_eq_cons_iff.1 order'
  rw [List.map_eq_nil_iff.1 nothing] at served_alone
  have settled_alone : site.Settled (j.serveAll site.files [r.package]).2.2 r' := by
    apply settled' r'
    rw [served_alone]
    exact List.mem_singleton_self r'
  have settled_here := settled r served
  obtain rfl : r' = r := settled_here.result_eq settled_alone same makes
  exact ⟨served_alone, settled_here.find_eq settled_alone kept kept' makes⟩

/-! ### What a restore reports -/

/-- A look at a file finds data exactly if the bytes of the file have it. -/
theorem classify_ofFile_iff {files : FileTree} {archive : String} {c : Content}
    (content : Medium.contentOfFile files archive = .ok c) (layout : Layout) (package : String)
    {mode : RestoreMode} (some_data : mode ≠ .none) :
    (classify layout package (.ofFile files archive)).1 = .ok mode ↔
      choiceIn layout (.ok c) package = some { package, mode } := by
  obtain ⟨outcome, m, looked, -, choice⟩ :=
    classify_of_shows (.ofFile files archive) layout package
  rw [looked, ← content, ← choice]
  constructor
  · rintro ⟨⟩
    cases mode with
    | none => exact absurd rfl some_data
    | keyValue => rfl
    | fullStream => rfl
  · intro chosen
    exact (choiceOf_eq_some chosen).2.1

section Report

variable {environment : String → Option String} {files files' : FileTree} {s : SourceOptions}
  {t : Transport} {out : String}

/-- A restore for which a transport has been opened and a directory made begins at a site.  The
packages that endanger nothing are spared there. -/
theorem Job.exists_site (opened : openTransport environment files s = .ok t)
    (made : files.makeDirectories (.ofText out) = (.ok (), files')) :
    ∃ site : (Job.of t s.archive out).Site, site.files = files' ∧
      files.readFile (.ofText s.archive) = .ok site.content ∧
      ∀ packages : List String,
        (∀ package ∈ packages,
          ¬ Endangers t.settings.layout files' s.archive out package) →
        ∀ d ∈ ((Job.of t s.archive out).granted (.ok site.content) packages).1,
          site.Spares d := by
  obtain ⟨⟨place, c, found⟩, -⟩ := openTransport_eq_ok opened
  have grows := FileTree.grows_makeDirectories files (.ofText out)
  rw [made] at grows
  obtain ⟨directory, found_out⟩ := FileTree.find_makeDirectories made
  let site : (Job.of t s.archive out).Site :=
    { files := files', place, content := c, directory
      archive := grows.find found
      out := (FileTree.find_eq_ok_iff.1 found_out).1 }
  have content : Medium.contentOfFile files' s.archive = .ok c :=
    (Site.kept_files : site.Kept site.files).contentOfFile
  refine ⟨site, rfl, FileTree.readFile_eq_ok_iff.2 ⟨place, found⟩, ?_⟩
  intro packages apart d given named led
  obtain ⟨listed, chosen⟩ := choice_of_granted d given
  obtain ⟨-, -, -, -, some_data⟩ := choiceIn_eq_some chosen
  refine apart d.package listed ⟨d.mode, named, ?_, some_data, ?_⟩
  · exact (classify_ofFile_iff content _ _ some_data).2 chosen
  · rw [grows.find found]
    obtain ⟨-, stands, -⟩ := FileTree.find_eq_ok_iff.1 (grows.find found)
    exact FileTree.find_eq_ok_iff.2 ⟨led, stands, fun _ => endsInSlash_outputPath _ _ _⟩

/-- If no package's file is the archive, and all files can be made, a restore shows a line for each
package that a list shows, in the same order and with the same mode, and each line tells of the
package's file.  A line shows a failure only where the package's name is refused or the archive
does not have its data whole.  Line and file are those that a restore of the package alone leaves,
whatever becomes of the others.  The code is that of a failure exactly if some line shows one.

There have to be chunks of the size that is asked for: settings are not checked for that. -/
theorem restorePackages_reports_list [Zip.Codecs]
    (opened : openTransport environment files s = .ok t)
    (small : t.settings.chunkSize < FullStream.chunkLimit)
    (made : files.makeDirectories (.ofText out) = (.ok (), files')) (token : Option Nat)
    {packages : List String}
    (apart : ∀ package ∈ packages, ¬ Endangers t.settings.layout files' s.archive out package)
    (creatable : ∀ package ∈ packages, isFileName package = true → ∀ mode,
      (classify t.settings.layout package (.ofFile files' s.archive)).1 = .ok mode →
      mode ≠ .none →
        ∃ file, files'.createFile (.ofText (outputPath out package mode)) = .ok file) :
    let ended := restorePackages environment files s out token packages
    let results := restoredPackages environment files s out token packages
    let listed := listPackages environment files s packages
    ended.1.output = results.map PackageResult.line ∧
    listed.output = results.map (packageLine ·.description) ∧ listed.code = 0 ∧
    ended.1.code = (if results.any (·.outcome.isFailure) then partialFailureCode else 0) ∧
    ∃ c, files.readFile (.ofText s.archive) = .ok c ∧ ∀ r ∈ results,
      r.TellsOf c t.settings.layout ended.2 out ∧
      (r.outcome.isFailure = true ↔
        isFileName r.package = false ∨ Lacking c t.settings.layout r.description) ∧
      restoredPackages environment files s out token [r.package] = [r] ∧
      (isFileName r.package = true →
        (restorePackages environment files s out token [r.package]).2.find
            (.ofText (outputPath out r.package r.mode)) =
          ended.2.find (.ofText (outputPath out r.package r.mode))) := by
  intro ended results listed
  obtain ⟨site, rfl, read, spared⟩ := Job.exists_site opened made
  let j := Job.of t s.archive out
  have content : Medium.contentOfFile files s.archive = .ok site.content := by
    rw [Medium.contentOfFile, read]
  have content' : Medium.contentOfFile site.files s.archive = .ok site.content :=
    (Job.Site.kept_files : site.Kept site.files).contentOfFile
  have spares := spared packages apart
  have unbroken : (j.granted (.ok site.content) packages).2 = none := by
    apply Classical.byContradiction
    intro broken
    exact Nat.not_le.2 small (Job.granted_breaks_off_iff.1 broken).1
  obtain ⟨order, misuse, kept, -, settled⟩ :=
    Job.Site.serveAll_of_kept Job.Site.kept_files spares
  obtain ⟨restored, served⟩ := restorePackages_eq opened made token packages
  obtain ⟨shown, code⟩ := listPackages_eq opened out packages
  rw [content] at shown code
  rw [← order] at shown
  simp only [ended, results, listed, restored, served, Job.output_report, Job.files_report]
  refine ⟨trivial, ?_, ?_, ?_, site.content, read, ?_⟩
  · rw [shown, List.map_map]
    rfl
  · rw [code, if_pos unbroken]
  · rw [Job.code_report, misuse, if_neg (not_not_intro unbroken)]
  · intro r member
    have given : r.description ∈ (j.granted (.ok site.content) packages).1 := by
      rw [← order]
      exact List.mem_map_of_mem member
    obtain ⟨asked, chosen⟩ := Job.choice_of_granted _ given
    obtain ⟨-, -, -, -, some_data⟩ := choiceIn_eq_some chosen
    have makes : site.Makes r := fun named =>
      creatable r.package asked named r.mode
        ((classify_ofFile_iff content' _ _ some_data).2 chosen) some_data
    refine ⟨(settled r member).tellsOf makes kept some_data,
      (settled r member).isFailure_iff makes some_data, ?_⟩
    obtain ⟨restored', served'⟩ := restorePackages_eq opened made token [r.package]
    rw [restored', served', Job.files_report]
    exact Job.Site.serveAll_alone spares member makes

end Report

/-! ### Restores of the sample archive, reported -/

namespace Sample

open BackupRestore.Sample

set_option maxRecDepth 4000

theorem dataStart_file : stream.dataStart content (some Medium.fileReach) = .ok 36 ∧
    record.dataStart content (some Medium.fileReach) = .ok 86 :=
  ⟨rfl, rfl⟩

/-- The archive has a full stream for the package `p`. -/
theorem choiceIn_stream :
    choiceIn layout (.ok content) "p" = some { package := "p", mode := .fullStream } := by
  have no_records : (Pattern.under (layout.recordsOf "p")).selects stream = false ∧
      (Pattern.under (layout.recordsOf "p")).selects record = false := by decide
  have found : (Pattern.exactly (layout.streamPath "p")).selects stream = true := by decide
  simp only [choiceIn, classifyIn, locateIn, read_content, firstMatch, dataStart_file, no_records,
    found, if_true, Bool.false_eq_true, if_false]
  rfl

/-- It has records for the package `q`. -/
theorem choiceIn_records :
    choiceIn layout (.ok content) "q" = some { package := "q", mode := .keyValue } := by
  rw [choiceIn, classifyIn_file]
  rfl

theorem contentOfFile_beside : Medium.contentOfFile beside "backup" = .ok content := rfl

theorem openTransport_beside : openTransport (fun _ => none) beside { archive := "backup" } =
    .ok { settings := {} } := rfl

theorem makeDirectories_beside : beside.makeDirectories (.ofText "out") = (.ok (), beside) := rfl

/-- Chunks may be as large as one likes. -/
theorem openTransport_large : openTransport (fun _ => none) beside
    { archive := "backup", chunkSize := some 9223372036854775808 } =
      .ok { settings := { chunkSize := 9223372036854775808 } } := rfl

/-- No package's file is the archive beside the directory for files. -/
theorem spared_beside {layout : Layout} {package : String} (either : package ∈ ["p", "q"]) :
    ¬ Endangers layout beside "backup" "out" package := by
  rintro ⟨mode, -, -, -, same⟩
  have archive : beside.find (.ofText "backup") = .ok (["backup"], .file content) := rfl
  rw [archive] at same
  simp only [List.mem_cons, List.not_mem_nil, or_false] at either
  rcases either with rfl | rfl <;> cases mode <;> cases same

/-- The layout of the sample archive is the one that settings give by default. -/
theorem layout_default : ({} : Settings).layout = layout := rfl

/-- The job of a restore into the directory beside the archive. -/
def job : Job where
  archive := "backup"
  out := "out"
  layout := layout
  chunkSize := 2048

theorem held_stream : job.held (.ok content) { package := "p", mode := .fullStream } =
    .ok (.streamed 4, [100, 97, 116, 97]) := by
  have found : (Pattern.exactly (layout.streamPath "p")).selects stream = true := by decide
  have payload : stream.payload content (some Medium.fileReach) = .ok [100, 97, 116, 97] := by
    simp only [Zip.Entry.payload, dataStart_file.1]
    rfl
  have held : streamHeldIn content (some Medium.fileReach) job.layout "p" =
      .ok [100, 97, 116, 97] := by
    have same : job.layout = layout := rfl
    simp only [same, streamHeldIn, locateIn, read_content, firstMatch, dataStart_file, found,
      if_true]
    change (stream.payload content (some Medium.fileReach)).mapError (fun _ => .error) = _
    rw [payload]
    rfl
  simp only [Job.held, held, if_true]
  rfl

theorem recordsHeldIn_file : recordsHeldIn content (some Medium.fileReach) layout "q" =
    some [{ key := [107], value := [118] }] := by
  simp only [recordsHeldIn, read_content]
  rfl

theorem held_records : ∃ bytes, job.held (.ok content) { package := "q", mode := .keyValue } =
    .ok (.records 1, bytes) := by
  have held : recordsHeldIn content (some Medium.fileReach) job.layout "q" =
      some [{ key := [107], value := [118] }] := recordsHeldIn_file
  simp only [Job.held, held, reduceCtorEq, if_false]
  exact ⟨_, rfl⟩

/-- A file of the job can be made, and then filled with what the archive has. -/
theorem serve_of_held (files : FileTree) (d : PackageDescription) (place : Location)
    (named : isFileName d.package = true)
    (made : files.createFile (.ofText (outputPath "out" d.package d.mode)) =
      .ok (place, files.write place #[]))
    (untouched : Medium.contentOfFile (files.write place #[]) "backup" = .ok content)
    {outcome : Outcome} {bytes : List UInt8}
    (held : job.held (.ok content) d = .ok (outcome, bytes)) :
    job.serve files d = (outcome, (files.write place #[]).write place bytes.toArray) := by
  have archive : job.archive = "backup" := rfl
  have out : job.out = "out" := rfl
  simp only [Job.serve, named, out, made, Job.fill, archive, untouched, held, Bool.not_true,
    Bool.false_eq_true, if_false]

/-- The job restores the stream of the package `p` and the one record of the package `q`. -/
theorem serveAll_beside : (job.serveAll beside ["p", "q"]).1 =
    [{ package := "p", mode := .fullStream, outcome := .streamed 4 },
      { package := "q", mode := .keyValue, outcome := .records 1 }] := by
  have small : job.chunkSize < FullStream.chunkLimit := by decide
  have first : job.choice? beside "p" = some { package := "p", mode := .fullStream } :=
    choiceIn_stream
  have stream := serve_of_held beside { package := "p", mode := .fullStream } ["out", "p.full"]
    (by decide) rfl rfl held_stream
  let after := (beside.write ["out", "p.full"] #[]).write ["out", "p.full"] #[100, 97, 116, 97]
  have second : job.choice? after "q" = some { package := "q", mode := .keyValue } :=
    choiceIn_records
  obtain ⟨bytes, held⟩ := held_records
  have record := serve_of_held after { package := "q", mode := .keyValue } ["out", "q.kv"]
    (by decide) rfl rfl held
  simp only [Job.serveAll, first, answerFor_of_small small, stream]
  simp only [after] at second record
  simp only [second, record]

theorem restoredPackages_beside :
    restoredPackages (fun _ => none) beside { archive := "backup" } "out" none ["p", "q"] =
      [{ package := "p", mode := .fullStream, outcome := .streamed 4 },
        { package := "q", mode := .keyValue, outcome := .records 1 }] := by
  obtain ⟨-, results⟩ :=
    restorePackages_eq openTransport_beside makeDirectories_beside none ["p", "q"]
  exact results.trans serveAll_beside

end Sample

/-- A list of the sample archive shows its two packages, and a restore has a line for each. -/
theorem restorePackages_reports_list_of_sample :
    openTransport (fun _ => none) Sample.beside { archive := "backup" } =
        .ok { settings := {} } ∧
      ({} : Settings).chunkSize < FullStream.chunkLimit ∧
      Sample.beside.makeDirectories (.ofText "out") = (.ok (), Sample.beside) ∧
      (listPackages (fun _ => none) Sample.beside { archive := "backup" } ["p", "q"]).output =
        ["p\tfull-stream", "q\tkey-value"] ∧
      let report := (restorePackages (fun _ => none) Sample.beside { archive := "backup" } "out"
        none ["p", "q"]).1
      report.output = ["p\tfull-stream\t4 byte(s)", "q\tkey-value\t1 record(s)"] ∧
        report.code = 0 := by
  have small : ({} : Settings).chunkSize < FullStream.chunkLimit := by decide
  obtain ⟨printed, listed, -, code, -⟩ := restorePackages_reports_list
    Sample.openTransport_beside small Sample.makeDirectories_beside none
    (fun package listed => Sample.spared_beside listed) (by
      intro package listed named mode stored some_data
      simp only [List.mem_cons, List.not_mem_nil, or_false] at listed
      rcases listed with rfl | rfl <;> cases mode <;> exact ⟨_, rfl⟩)
  rw [Sample.restoredPackages_beside] at printed listed code
  exact ⟨Sample.openTransport_beside, small, Sample.makeDirectories_beside, listed, printed, code⟩

/-- The settings are as good for chunks larger than any buffer, but then a restore is broken off at
a full stream: no line tells of it, and yet the code is not that of a success. -/
theorem restorePackages_breaks_off_at_stream :
    let s : SourceOptions := { archive := "backup", chunkSize := some 9223372036854775808 }
    openTransport (fun _ => none) Sample.beside s =
        .ok { settings := { chunkSize := 9223372036854775808 } } ∧
      Sample.beside.makeDirectories (.ofText "out") = (.ok (), Sample.beside) ∧
      (∀ package ∈ ["p", "q"], ∀ mode, ∃ file,
        Sample.beside.createFile (.ofText (outputPath "out" package mode)) = .ok file) ∧
      (∀ package ∈ ["p", "q"],
        ¬ Endangers ({} : Settings).layout Sample.beside "backup" "out" package) ∧
      (restorePackages (fun _ => none) Sample.beside s "out" none ["p", "q"]).1.output = [] ∧
      (restorePackages (fun _ => none) Sample.beside s "out" none ["p", "q"]).1.code = 101 := by
  intro s
  obtain ⟨restored, -⟩ := restorePackages_eq Sample.openTransport_large
    Sample.makeDirectories_beside none ["p", "q"]
  let j := Job.of { settings := { chunkSize := 9223372036854775808 } } s.archive "out"
  have chosen : j.choice? Sample.beside "p" =
      some { package := "p", mode := .fullStream } := by
    have content : Medium.contentOfFile Sample.beside j.archive =
        .ok BackupRestore.Sample.content := Sample.contentOfFile_beside
    have layout : j.layout = BackupRestore.Sample.layout := Sample.layout_default
    rw [Job.choice?, content, layout, Sample.choiceIn_stream]
  have refused : answerFor j.chunkSize { package := "p", mode := .fullStream } =
      .error .chunkTooLarge := if_pos ⟨rfl, Nat.le_refl _⟩
  have served : j.serveAll Sample.beside ["p", "q"] =
      ([], some .chunkTooLarge, Sample.beside) := by
    simp only [Job.serveAll, chosen, refused]
  rw [restored, served]
  refine ⟨Sample.openTransport_large, Sample.makeDirectories_beside, ?_,
    fun _ listed => Sample.spared_beside listed, rfl, rfl⟩
  intro package listed mode
  simp only [List.mem_cons, List.not_mem_nil, or_false] at listed
  rcases listed with rfl | rfl <;> cases mode <;> exact ⟨_, rfl⟩

end BackupRestore.Command
