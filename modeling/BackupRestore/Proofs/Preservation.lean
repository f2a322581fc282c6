/-
Module: BackupRestore.Proofs.Preservation
Purpose: When a restore leaves the archive that it reads as it is.
Main exports: Session.nextPackage_chooses, Transport.Keeps, Command.Scene, Command.Guards,
  Command.Endangers, Command.restorePackages_keeps_archive, Command.restorePackages_removes_archive
-/
import BackupRestore.Command.Restore
import BackupRestore.Proofs.Files
import BackupRestore.Proofs.Packages

namespace BackupRestore

/-!
A restore reads the archive through handles and changes nothing but the files that it makes for
packages.  Whether one of those files is the archive itself nobody asks: it is if the path put
together for a chosen package leads there.  Where no such path does, every step of the command
leaves the bytes of the archive alone, so that each later look at them finds what the first one
found, and this carries over from one step to the next (`Command.Guards`).
-/

theorem choiceOf_eq_some {package : String} {outcome : Except RestoreError RestoreMode}
    {d : PackageDescription} (chosen : choiceOf package outcome = some d) :
    d.package = package ∧ outcome = .ok d.mode ∧ d.mode ≠ .none := by
  unfold choiceOf at chosen
  split at chosen
  · cases chosen
  · cases chosen
  · rename_i mode some_data
    cases chosen
    exact ⟨rfl, rfl, fun none => some_data none⟩

namespace Session

/-- The packages of the looks are packages of the session. -/
theorem package_surveyNext (s : Session) (m : Medium) :
    ∀ l ∈ (s.surveyNext m).1, l.package ∈ s.packages := by
  intro l member
  unfold surveyNext at member
  cases place : s.nextIndex? with
  | none =>
      rw [place] at member
      cases member
  | some index =>
      rw [place] at member
      have listed := List.mem_map_of_mem (f := Look.package) member
      rw [(indices_survey index _).2] at listed
      exact List.mem_of_mem_drop (List.mem_of_mem_take listed)

/-- A package that is given was asked for, and the archive has data for it. -/
theorem nextPackage_chooses {s s' : Session} {m m' : Medium} {c : Content}
    (faultless : m.Faultless c) {d : PackageDescription}
    (given : s.nextPackage m = (.ok (.package d), s', m')) :
    d.package ∈ s.packages ∧ classifyIn c m.reach s.layout d.package = .ok d.mode ∧
      d.mode ≠ .none := by
  rcases s.nextPackage_cases m with
    ⟨index, n, found, stream, -, -, choices, eq⟩ | ⟨index, -, -, -, eq⟩ | ⟨-, -, eq⟩
  · rw [given] at eq
    have answer := congrArg Prod.fst eq
    unfold answerFor at answer
    split at answer
    · cases answer
    · cases answer
      have some_look : d ∈ (s.surveyNext m).1.filterMap Look.choice? := by
        rw [choices]
        exact List.mem_singleton_self d
      obtain ⟨l, looked, chosen⟩ := List.mem_filterMap.1 some_look
      obtain ⟨same, outcome, some_data⟩ := choiceOf_eq_some chosen
      rw [outcome_surveyNext_of_faultless faultless s l looked] at outcome
      rw [same]
      exact ⟨s.package_surveyNext m l looked, outcome, some_data⟩
  · rw [given] at eq
    cases eq
  · rw [given] at eq
    cases eq

end Session

/-! ### What a transport keeps -/

namespace Transport

/-- The layout and the packages of the session, if there is one. -/
def list? (t : Transport) : Option (Layout × List String) :=
  t.session.map fun s => (s.layout, s.packages)

/-- The session goes on with its list, and the medium with its bytes. -/
structure Keeps (t : Transport) (m : Medium) (t' : Transport) (m' : Medium) : Prop where
  list : t'.list? = t.list?
  medium : m.LeadsTo m'

variable {t t' t'' : Transport} {m m' m'' : Medium}

theorem Keeps.refl (t : Transport) (m : Medium) : Keeps t m t m := ⟨rfl, .refl m⟩

theorem Keeps.trans (first : Keeps t m t' m') (second : Keeps t' m' t'' m'') :
    Keeps t m t'' m'' where
  list := second.list.trans first.list
  medium := first.medium.trans second.medium

theorem keeps_nextPackage (t : Transport) (m : Medium) :
    Keeps t m (t.nextPackage m).2.1 (t.nextPackage m).2.2 := by
  cases begun : t.session with
  | none =>
      simp only [nextPackage, begun]
      exact .refl t m
  | some session =>
      have leads := session.leadsTo_surveyNext m
      rw [← session.medium_nextPackage] at leads
      simp only [nextPackage, begun]
      refine ⟨?_, leads⟩
      simp only [list?, begun, Option.map_some]
      rcases session.nextPackage_cases m with
        ⟨index, n, d, stream, -, -, -, eq⟩ | ⟨index, -, -, -, eq⟩ | ⟨-, -, eq⟩ <;> rw [eq]

theorem nextPackage_of_session {t : Transport} {session session' : Session} {m m' : Medium}
    {answer : Except Misuse NextPackage} (begun : t.session = some session)
    (given : session.nextPackage m = (answer, session', m')) :
    t.nextPackage m = (answer, { t with session := some session' }, m') := by
  simp only [nextPackage, begun, given]

theorem keeps_streamChunk (t : Transport) (m : Medium) (o : Output) :
    Keeps t m (t.streamChunk m o).2.1 (t.streamChunk m o).2.2.1 := by
  cases begun : t.session with
  | none =>
      simp only [streamChunk, begun]
      exact .refl t m
  | some session =>
      have leads := session.leadsTo_perform m (.streamChunk o) (by rintro _ ⟨⟩)
      obtain ⟨stream, same, -⟩ := session.session_streamChunk m o
      simp only [streamChunk, begun]
      change m.LeadsTo (session.streamChunk m o).2.2.1 at leads
      generalize session.streamChunk m o = result at same leads ⊢
      obtain ⟨misuse | (e | chunk), session', m', o'⟩ := result <;>
        exact ⟨by simp [list?, begun, show session' = _ from same], leads⟩

theorem keeps_streamMore (t : Transport) (m : Medium) (o : Output) (moved : Nat) :
    Keeps t m (t.streamMore m o moved).2.1 (t.streamMore m o moved).2.2.1 := by
  fun_induction streamMore t m o moved with
  | case1 t m o moved misuse t' m' o' eq =>
      have kept := t.keeps_streamChunk m o
      rw [eq] at kept
      exact kept
  | case2 t m o moved status t' m' o' eq =>
      have kept := t.keeps_streamChunk m o
      rw [eq] at kept
      exact kept
  | case3 t m o moved t' m' o' eq =>
      have kept := t.keeps_streamChunk m o
      rw [eq] at kept
      exact kept
  | case4 t m o moved n t' m' o' eq progress ih =>
      have kept := t.keeps_streamChunk m o
      rw [eq] at kept
      exact kept.trans ih

theorem keeps_abort (t : Transport) (m : Medium) :
    Keeps t m (t.abort m).2.1 (t.abort m).2.2 := by
  cases begun : t.session with
  | none =>
      simp only [abort, begun]
      exact .refl t m
  | some session =>
      have leads := session.leadsTo_perform m .abort (by rintro _ ⟨⟩)
      obtain ⟨stream, same, -⟩ := session.session_abort m
      simp only [abort, begun]
      change m.LeadsTo (session.abort m).2 at leads
      exact ⟨by simp [list?, begun, same], leads⟩

theorem leadsTo_transferKeyValue [Zip.Codecs] {σ : Type} [RecordSink σ] (t : Transport) (m : Medium)
    (sink : σ) : m.LeadsTo (t.transferKeyValue m sink).2.1 := by
  cases begun : t.session with
  | none =>
      simp only [transferKeyValue, begun]
      exact .refl m
  | some session =>
      have leads := session.leadsTo_perform m (.transferKeyValue sink) (by rintro _ ⟨⟩)
      change m.LeadsTo (session.transferKeyValue m sink).2.1 at leads
      simp only [transferKeyValue, begun]
      generalize session.transferKeyValue m sink = result at leads ⊢
      obtain ⟨misuse | (e | records), m', sink'⟩ := result <;> exact leads

/-- A package that is given is in the list, and the archive has data for it. -/
theorem nextPackage_chooses {t t' : Transport} {m m' : Medium} {c : Content}
    (faultless : m.Faultless c) {d : PackageDescription}
    (given : t.nextPackage m = (.ok (.package d), t', m')) :
    ∃ list ∈ t.list?, d.package ∈ list.2 ∧ classifyIn c m.reach list.1 d.package = .ok d.mode ∧
      d.mode ≠ .none := by
  cases begun : t.session with
  | none =>
      simp only [nextPackage, begun] at given
      cases given
  | some session =>
      simp only [nextPackage, begun] at given
      refine ⟨(session.layout, session.packages), by simp [list?, begun], ?_⟩
      generalize answered : session.nextPackage m = result at given
      obtain ⟨answer, session', m₁⟩ := result
      cases given
      exact Session.nextPackage_chooses faultless answered

end Transport

/-! ### The steps of a restore -/

namespace Command

/-- The state in which a restore begins to make files: the directory for them is there, and the
path of the archive leads to its bytes. -/
structure Scene where
  archive : String
  out : String
  layout : Layout
  packages : List String
  files : FileTree
  place : Location
  content : Content
  found : files.find (.ofText archive) = .ok (place, .file content)

namespace Scene

variable (sc : Scene)

theorem leads : sc.files.Leads (.ofText sc.archive) sc.place :=
  (FileTree.find_eq_ok_iff.1 sc.found).1

/-- Among the same directories, the archive is read where it stood. -/
theorem readFile_eq {files : FileTree} (same : sc.files.SameDirectories files)
    (stands : files.node? sc.place = some (.file sc.content)) :
    files.readFile (.ofText sc.archive) = .ok sc.content :=
  FileTree.readFile_eq_ok_iff.2 ⟨sc.place, FileTree.find_eq_ok_iff.2
    ⟨same.leads_iff.2 sc.leads, stands, (FileTree.find_eq_ok_iff.1 sc.found).2.2⟩⟩

theorem contentOfFile_eq {files : FileTree} (same : sc.files.SameDirectories files)
    (stands : files.node? sc.place = some (.file sc.content)) :
    Medium.contentOfFile files sc.archive = .ok sc.content := by
  rw [Medium.contentOfFile, sc.readFile_eq same stands]

theorem faultless_ofFile : (Medium.ofFile sc.files sc.archive).Faultless sc.content where
  content := sc.contentOfFile_eq (.refl _) (FileTree.find_eq_ok_iff.1 sc.found).2.1
  admitting := rfl
  planned := by simp [Medium.ofFile]
  unrefused := rfl
  sound := ⟨rfl, by simp [Medium.ofFile]⟩

end Scene

/-- The file for a package would be the archive: the package may have a file, the archive has data
for it, and the path of its file leads where the path of the archive does. -/
def Endangers (layout : Layout) (files : FileTree) (archive out package : String) : Prop :=
  ∃ mode, isFileName package = true ∧
    (classify layout package (.ofFile files archive)).1 = .ok mode ∧ mode ≠ .none ∧
    files.find (.ofText (outputPath out package mode)) = files.find (.ofText archive)

/-- The restore has not touched the archive: it stands where it stood, with the bytes that the
medium gives, among the same directories. -/
structure Guards (sc : Scene) (r : Restoring) : Prop where
  archive : r.archive = sc.archive
  out : r.out = sc.out
  directories : sc.files.SameDirectories r.files
  stands : r.files.node? sc.place = some (.file sc.content)
  faultless : r.medium.Faultless sc.content
  reach : r.medium.reach = some Medium.fileReach
  list : ∀ list ∈ r.transport.list?, list = (sc.layout, sc.packages)

namespace Guards

variable {sc : Scene} {r : Restoring}

/-- What a transport does leaves the archive alone. -/
theorem keeps (guards : Guards sc r) {t : Transport} {m : Medium}
    (kept : r.transport.Keeps r.medium t m) :
    Guards sc { r with transport := t, medium := m } where
  archive := guards.archive
  out := guards.out
  directories := guards.directories
  stands := guards.stands
  faultless := kept.medium.faultless _ guards.faultless
  reach := kept.medium.reach.trans guards.reach
  list := by
    rw [kept.list]
    exact guards.list

/-- So does a change to the files elsewhere. -/
theorem withFiles (guards : Guards sc r) {files : FileTree}
    (same : r.files.SameDirectories files)
    (untouched : files.node? sc.place = r.files.node? sc.place) :
    Guards sc (r.withFiles files) where
  archive := guards.archive
  out := guards.out
  directories := guards.directories.trans same
  stands := untouched.trans guards.stands
  faultless := by
    have content := sc.contentOfFile_eq (guards.directories.trans same)
      (untouched.trans guards.stands)
    rw [← guards.archive] at content
    exact { guards.faultless with content }
  reach := guards.reach
  list := guards.list

theorem write (guards : Guards sc r) {place : Location} (elsewhere : place ≠ sc.place)
    (no_directory : r.files.node? place ≠ some .directory) (content : Content) :
    Guards sc (r.withFiles (r.files.write place content)) :=
  guards.withFiles (FileTree.sameDirectories_write no_directory content)
    (FileTree.node?_set_of_ne elsewhere.symm)

theorem discard (guards : Guards sc r) {place : Location} (elsewhere : place ≠ sc.place)
    (no_directory : r.files.node? place ≠ some .directory) (why : PackageFailure) :
    Guards sc (r.discard place why).2 :=
  guards.withFiles (FileTree.sameDirectories_remove no_directory)
    (FileTree.node?_remove_of_ne elsewhere.symm)

theorem restoreRecords [Zip.Codecs] (guards : Guards sc r) {place : Location}
    (elsewhere : place ≠ sc.place) (no_directory : r.files.node? place ≠ some .directory) :
    Guards sc (r.restoreRecords place).2 := by
  have leads := r.transport.leadsTo_transferKeyValue r.medium
    ({ output := .willing } : RecordWriter)
  rcases moved : r.transport.transferKeyValue r.medium ({ output := .willing } : RecordWriter) with
    ⟨answer, m, writer⟩
  rw [moved] at leads
  have behind := guards.keeps ⟨rfl, leads⟩
  simp only [Restoring.restoreRecords, moved]
  split
  · exact behind.write elsewhere no_directory _
  · exact behind.discard elsewhere no_directory _
  · exact behind.discard elsewhere no_directory _

theorem restoreStream (guards : Guards sc r) {place : Location}
    (elsewhere : place ≠ sc.place) (no_directory : r.files.node? place ≠ some .directory) :
    Guards sc (r.restoreStream place).2 := by
  have kept := r.transport.keeps_streamMore r.medium .willing 0
  rcases moved : r.transport.streamMore r.medium .willing 0 with ⟨answer, t, m, output⟩
  rw [moved] at kept
  have behind := guards.keeps kept
  simp only [Restoring.restoreStream, Transport.streamAll, moved]
  split
  · exact behind.write elsewhere no_directory _
  · exact behind.discard elsewhere no_directory _
  · exact (behind.keeps (t.keeps_abort m)).discard elsewhere no_directory _
  · exact behind.discard elsewhere no_directory _

/-- The file for a package whose path does not lead to the archive is another file. -/
theorem elsewhere_of_createFile (guards : Guards sc r) {path : PathName} {place : Location}
    {files : FileTree} (made : r.files.createFile path = .ok (place, files))
    (apart : sc.files.find path ≠ sc.files.find (.ofText sc.archive)) : place ≠ sc.place := by
  obtain ⟨led, no_directory, open_, -⟩ := FileTree.createFile_eq_ok made
  rintro rfl
  apply apart
  rw [sc.found]
  exact FileTree.find_eq_ok_iff.2 ⟨guards.directories.leads_iff.1 led,
    (FileTree.find_eq_ok_iff.1 sc.found).2.1, fun _ => open_⟩

theorem restorePackage [Zip.Codecs] (guards : Guards sc r) (d : PackageDescription)
    (apart : isFileName d.package = true →
      sc.files.find (.ofText (outputPath sc.out d.package d.mode)) ≠
        sc.files.find (.ofText sc.archive)) :
    Guards sc (r.restorePackage d).2 := by
  unfold Restoring.restorePackage
  cases named : isFileName d.package with
  | false => exact guards
  | true =>
      simp only [Bool.not_true, Bool.false_eq_true, if_false]
      cases made : r.files.createFile (.ofText (outputPath r.out d.package d.mode)) with
      | error fault =>
          simp only
          split
          · exact guards.keeps (r.transport.keeps_abort r.medium)
          · exact guards
      | ok file =>
          obtain ⟨place, files⟩ := file
          rw [guards.out] at made
          have elsewhere := guards.elsewhere_of_createFile made (apart named)
          obtain ⟨-, no_directory, -, rfl⟩ := FileTree.createFile_eq_ok made
          have emptied := guards.write elsewhere no_directory #[]
          have still : (r.files.write place #[]).node? place ≠ some .directory := by
            intro directory
            exact no_directory
              (((FileTree.sameDirectories_write no_directory #[]).directories place).1 directory)
          simp only
          split
          · exact emptied.restoreStream elsewhere still
          · exact emptied.restoreRecords elsewhere still

end Guards

/-- A package that is given is restored before the packages behind it. -/
theorem restoreAll_of_package [Zip.Codecs] {r : Restoring} {d : PackageDescription} {t : Transport}
    {m : Medium} (given : r.transport.nextPackage r.medium = (.ok (.package d), t, m))
    (package : String) (rest : List String) :
    (restoreAll r (package :: rest)).2.2 =
      (restoreAll ({ r with transport := t, medium := m }.restorePackage d).2 rest).2.2 := by
  simp only [restoreAll, given]

/-- A restore of any packages guards the archive if none of them endangers it. -/
theorem guards_restoreAll [Zip.Codecs] {sc : Scene} {r : Restoring} (guards : Guards sc r)
    (apart : ∀ package ∈ sc.packages, ¬ Endangers sc.layout sc.files sc.archive sc.out package)
    (asked : List String) : Guards sc (restoreAll r asked).2.2 := by
  induction asked generalizing r with
  | nil => exact guards
  | cons _ rest ih =>
      have kept := r.transport.keeps_nextPackage r.medium
      rcases given : r.transport.nextPackage r.medium with ⟨answer, t, m⟩
      rw [given] at kept
      have behind := guards.keeps kept
      simp only [restoreAll, given]
      match answer with
      | .ok (.package d) =>
          apply ih
          apply behind.restorePackage d
          intro named same
          obtain ⟨list, held, listed, stored, some_data⟩ :=
            Transport.nextPackage_chooses guards.faultless given
          cases guards.list list held
          obtain ⟨m', -, -, looked⟩ :=
            classify_of_faultless sc.faultless_ofFile sc.layout d.package
          rw [guards.reach] at stored
          refine apart d.package listed ⟨d.mode, named, ?_, some_data, same⟩
          rw [looked]
          exact stored
      | .ok .noMorePackages => exact behind
      | .error misuse => exact behind

/-- A transport that is opened has the bytes of a file to work on, and has not begun. -/
theorem openTransport_eq_ok {environment : String → Option String} {files : FileTree}
    {s : SourceOptions} {t : Transport} (opened : openTransport environment files s = .ok t) :
    (∃ place content, files.find (.ofText s.archive) = .ok (place, .file content)) ∧
      t.session = none := by
  unfold openTransport at opened
  split at opened
  · cases opened
  · rename_i there
    constructor
    · unfold FileTree.isFile at there
      split at there
      · rename_i place content found
        exact ⟨place, content, found⟩
      · simp at there
    · cases loaded : loadOverrides environment files s with
      | error failure => simp [bind, Except.bind, loaded] at opened
      | ok changes =>
          simp only [bind, Except.bind, loaded] at opened
          split at opened
          · rename_i t' created
            cases opened
            rw [Transport.session_of_create created]
          · cases opened

/-- The files after a restore are those after its packages, once it has begun. -/
theorem files_restorePackages [Zip.Codecs] {environment : String → Option String}
    {files files' : FileTree} {s : SourceOptions} {out : String} {token : Option Nat}
    {packages : List String} {t transport : Transport} {status : Status} {medium : Medium}
    (opened : openTransport environment files s = .ok t)
    (made : files.makeDirectories (.ofText out) = (.ok (), files'))
    (started : t.start (.ofFile files' s.archive) (token.getD t.currentToken) packages =
      (status, transport, medium)) :
    (restorePackages environment files s out token packages).2 =
      (restoreAll { archive := s.archive, out, files := files', transport, medium }
        packages).2.2.files := by
  simp only [restorePackages, opened, made, started]
  split
  · rename_i results misuse r eq
    rw [eq]
  · rename_i results r eq
    rw [eq]

/-- The archive outlasts a restore, whatever the packages and however the restore ends, if no
package that the archive has data for is to have its file where the archive is. -/
theorem restorePackages_keeps_archive [Zip.Codecs] (environment : String → Option String)
    (files : FileTree) (s : SourceOptions) (out : String) (token : Option Nat)
    (packages : List String)
    (apart : ∀ t, openTransport environment files s = .ok t → ∀ package ∈ packages,
      ¬ Endangers t.settings.layout (files.makeDirectories (.ofText out)).2 s.archive out
        package) :
    (restorePackages environment files s out token packages).2.readFile (.ofText s.archive) =
      files.readFile (.ofText s.archive) := by
  cases opened : openTransport environment files s with
  | error failure => simp only [restorePackages, opened]
  | ok t =>
      obtain ⟨⟨place, content, found⟩, not_begun⟩ := openTransport_eq_ok opened
      have grows := FileTree.grows_makeDirectories files (.ofText out)
      have apart := apart t opened
      rw [FileTree.readFile_eq_ok_iff.2 ⟨place, found⟩]
      rcases made : files.makeDirectories (.ofText out) with ⟨fault | done, files'⟩
      · rw [made] at grows
        simp only [restorePackages, opened, made]
        exact FileTree.readFile_eq_ok_iff.2 ⟨place, grows.find found⟩
      · rw [made] at grows apart
        let sc : Scene :=
          { archive := s.archive, out, layout := t.settings.layout, packages,
            files := files', place, content, found := grows.find found }
        have started : t.start (.ofFile files' s.archive) (token.getD t.currentToken) packages =
            (.ok, { t with session := some (.start t.settings (token.getD t.currentToken)
              packages) }, .ofFile files' s.archive) := by
          simp only [Transport.start, not_begun]
        have guards : Guards sc
            { archive := s.archive, out, files := files',
              transport := { t with session := some (.start t.settings
                (token.getD t.currentToken) packages) },
              medium := .ofFile files' s.archive } := by
          refine ⟨rfl, rfl, .refl _, (FileTree.find_eq_ok_iff.1 sc.found).2.1,
            sc.faultless_ofFile, rfl, ?_⟩
          rintro list ⟨⟩
          rfl
        have kept := guards_restoreAll guards apart packages
        rw [files_restorePackages opened made started]
        exact sc.readFile_eq kept.directories kept.stands

/-! ### A package that takes the archive's place -/

end Command

theorem transferRecords_of_empty [Zip.Codecs] {σ : Type} [RecordSink σ] {m : Medium}
    (empty : m.content = .ok #[]) (layout : Layout) (package : String) (sink : σ) :
    ∃ e, (transferRecords layout package m sink).1 = .error e := by
  unfold transferRecords
  rcases Archive.openOn_cases m with
    ⟨e, m₁, opened, -⟩ | ⟨a, m₁, opened, -, -, -, content, read⟩
  · rw [opened]
    exact ⟨e, rfl⟩
  · rw [empty] at content
    rw [← Except.ok.inj content] at read
    cases read

theorem RestoreError.status_ne_ok (e : RestoreError) : e.status ≠ .ok := by
  unfold status
  split <;> simp

/-- No records are moved out of nothing. -/
theorem Transport.transferKeyValue_of_empty [Zip.Codecs] {σ : Type} [RecordSink σ] (t : Transport)
    {m : Medium} (empty : m.content = .ok #[]) (sink : σ) :
    (t.transferKeyValue m sink).1 ≠ .ok .ok := by
  intro moved
  cases begun : t.session with
  | none => simp [transferKeyValue, begun] at moved
  | some session =>
      simp only [transferKeyValue, begun, Session.transferKeyValue] at moved
      cases chosen : session.currentPackage? with
      | none => simp [chosen] at moved
      | some package =>
          obtain ⟨e, failed⟩ := transferRecords_of_empty empty session.layout package sink
          rcases moving : transferRecords session.layout package m sink with ⟨answer, m', sink'⟩
          rw [moving] at failed
          cases failed
          by_cases records : session.mode = .keyValue
          · simp [chosen, records, moving, RestoreError.status_ne_ok] at moved
          · simp [chosen, records] at moved

namespace Command

/-- A file for records is removed if there is nothing to take them from. -/
theorem Restoring.files_restoreRecords_of_empty [Zip.Codecs] {r : Restoring}
    (empty : r.medium.content = .ok #[]) (place : Location) :
    (r.restoreRecords place).2.files = r.files.remove place := by
  have nothing_moved := r.transport.transferKeyValue_of_empty empty
    ({ output := .willing } : RecordWriter)
  rcases moved : r.transport.transferKeyValue r.medium ({ output := .willing } : RecordWriter)
    with ⟨answer, m, writer⟩
  rw [moved] at nothing_moved
  simp only [restoreRecords, moved]
  split
  · exact absurd rfl nothing_moved
  · rfl
  · rfl

/-- A package with records whose file is the archive removes it: making the file empties the
archive, of which no records can be moved, and so the file is discarded. -/
theorem Guards.restorePackage_removes_archive [Zip.Codecs] {sc : Scene} {r : Restoring}
    (guards : Guards sc r) {d : PackageDescription} (named : isFileName d.package = true)
    (records : d.mode = .keyValue) {files : FileTree}
    (made : r.files.createFile (.ofText (outputPath r.out d.package d.mode)) =
      .ok (sc.place, files)) :
    (r.restorePackage d).2.files = (r.files.write sc.place #[]).remove sc.place := by
  obtain ⟨-, no_directory, -, rfl⟩ := FileTree.createFile_eq_ok made
  have below := FileTree.ne_nil_of_no_directory no_directory
  have same := FileTree.sameDirectories_write no_directory #[]
  have emptied : (r.withFiles (r.files.write sc.place #[])).medium.content = .ok #[] := by
    have found := FileTree.find_eq_ok_iff.2 ⟨(guards.directories.trans same).leads_iff.2 sc.leads,
      FileTree.node?_set_self below,
      fun _ => (FileTree.find_eq_ok_iff.1 sc.found).2.2 Node.noConfusion⟩
    have read := FileTree.readFile_eq_ok_iff.2 ⟨_, found⟩
    simp only [Restoring.withFiles, Medium.refresh, Medium.contentOfFile, guards.archive, read]
  obtain ⟨package, mode⟩ := d
  cases records
  simp only [Restoring.restorePackage, named, made, Bool.not_true, Bool.false_eq_true, if_false,
    reduceCtorEq]
  exact Restoring.files_restoreRecords_of_empty emptied sc.place

/-! ### Restores of the sample archive -/

namespace Sample

open BackupRestore.Sample

set_option maxRecDepth 4000

/-- A directory for files, and an archive beside it. -/
def beside : FileTree where
  nodes := [(["out"], .directory), (["backup"], .file content)]

/-- A directory for files, with the archive in it, under the name of a file of package `q`. -/
def within : FileTree where
  nodes := [(["out"], .directory), (["out", "q.kv"], .file content)]

/-- The archive has records for the package `q`. -/
theorem classifyIn_file :
    classifyIn content (some Medium.fileReach) layout "q" = .ok .keyValue := by
  have visitable : ∀ e ∈ #[stream, record].toList,
      ∃ start, e.dataStart content (some Medium.fileReach) = .ok start := by
    intro e member
    rcases List.mem_cons.1 member with rfl | later
    · exact ⟨36, rfl⟩
    · rw [List.mem_singleton.1 later]
      exact ⟨86, rfl⟩
  obtain ⟨a, found, located⟩ := locateIn_of_selected
    (p := .under (layout.recordsOf "q")) read_content visitable
    (List.mem_cons_of_mem _ List.mem_cons_self) (by decide)
  rw [classifyIn, located]

/-- The path of the archive is the one at which the records of `q` are put. -/
def scene : Scene where
  archive := "out/q.kv"
  out := "out"
  layout := layout
  packages := ["q"]
  files := within
  place := ["out", "q.kv"]
  content := content
  found := rfl

/-- A session for the package `q`. -/
def session : Session := .start {} 1 ["q"]

/-- The restore of the package `q` as it begins. -/
def restoring : Restoring where
  archive := "out/q.kv"
  out := "out"
  files := within
  transport := { settings := {}, session := some session }
  medium := .ofFile within "out/q.kv"

theorem guards_restoring : Guards scene restoring where
  archive := rfl
  out := rfl
  directories := .refl _
  stands := rfl
  faultless := scene.faultless_ofFile
  reach := rfl
  list := by
    rintro list ⟨⟩
    rfl

/-- The session begins with the records of `q`. -/
theorem nextPackage_session :
    ∃ s m, session.nextPackage restoring.medium =
      (.ok (.package { package := "q", mode := .keyValue }), s, m) := by
  obtain ⟨m, -, -, looked⟩ := classify_of_faultless guards_restoring.faultless layout "q"
  have reach : restoring.medium.reach = some Medium.fileReach := rfl
  have bytes : scene.content = content := rfl
  rw [reach, bytes, classifyIn_file] at looked
  exact ⟨_, m, Session.seekPackage_cons (s := session) looked 0 []⟩

end Sample

/-- An archive beside the directory for files outlasts the restore of its records. -/
theorem restorePackages_keeps_archive_beside :
    (restorePackages (fun _ => none) Sample.beside { archive := "backup" } "out" none
      ["q"]).2.readFile (.ofText "backup") = .ok BackupRestore.Sample.content := by
  have kept := restorePackages_keeps_archive (fun _ => none) Sample.beside
    { archive := "backup" } "out" none ["q"] (by
      intro t _ package member
      rw [List.mem_singleton.1 member]
      rintro ⟨mode, -, -, -, same⟩
      have archive : (Sample.beside.makeDirectories (.ofText "out")).2.find (.ofText "backup") =
        .ok (["backup"], .file BackupRestore.Sample.content) := rfl
      rw [archive] at same
      cases mode <;> cases same)
  rw [kept]
  rfl

/-- An archive in the directory for files, under the name of a file of a package with records, is
gone after the restore of that package. -/
theorem restorePackages_removes_archive :
    Sample.within.readFile (.ofText "out/q.kv") = .ok BackupRestore.Sample.content ∧
      (restorePackages (fun _ => none) Sample.within { archive := "out/q.kv" } "out" none
        ["q"]).2.readFile (.ofText "out/q.kv") = .error .notFound := by
  have opened : openTransport (fun _ => none) Sample.within { archive := "out/q.kv" } =
      .ok { settings := {} } := rfl
  have directory : Sample.within.makeDirectories (.ofText "out") = (.ok (), Sample.within) := rfl
  have started : Transport.start { settings := {} } (.ofFile Sample.within "out/q.kv")
      (Option.getD none (Transport.currentToken { settings := {} })) ["q"] =
        (.ok, Sample.restoring.transport, Sample.restoring.medium) := rfl
  have made : Sample.within.createFile (.ofText (outputPath "out" "q" .keyValue)) =
      .ok (["out", "q.kv"], Sample.within.write ["out", "q.kv"] #[]) := rfl
  obtain ⟨s, m, given⟩ := Sample.nextPackage_session
  have given := Transport.nextPackage_of_session (t := Sample.restoring.transport) rfl given
  have behind := Sample.guards_restoring.keeps
    (Sample.restoring.transport.keeps_nextPackage Sample.restoring.medium)
  rw [given] at behind
  have removed := behind.restorePackage_removes_archive
    (d := { package := "q", mode := .keyValue }) rfl rfl made
  have files : (restorePackages (fun _ => none) Sample.within { archive := "out/q.kv" } "out" none
      ["q"]).2 = (restoreAll Sample.restoring ["q"]).2.2.files :=
    files_restorePackages opened directory started
  constructor
  · rfl
  · rw [files, restoreAll_of_package given, restoreAll, removed]
    rfl

end Command
end BackupRestore
