/-
Module: BackupRestore.Proofs.Restores
Purpose: The restore of a list of packages, told package by package from the archive's bytes alone.
Main exports: Command.choiceIn, Command.Job, Command.Job.serve, Command.Job.serveAll,
  Command.Job.Serving.restorePackage, Command.restoreAll_eq_serveAll, Command.restoredPackages,
  Command.restorePackages_eq, Command.restorePackages_ignores_chunk_size
-/
import BackupRestore.Proofs.Coherence
import BackupRestore.Proofs.Holdings

namespace BackupRestore

/-!
A restore goes through one session, opens the archive anew for every look and every transfer, and
moves a stream in chunks.  None of this is seen from outside.  What becomes of a package is told by
the bytes that the path of the archive leads to when its turn comes (`Command.Job.serve`), and a
restore of many packages serves one after the other (`Command.Job.serveAll`).  The archive may be
changed on the way, by the file of a package that is the archive itself: each look finds the bytes
that stand there by then.

Of the size of the chunks only this is left: whether there are chunks of that size at all.
-/

/-! ### What the medium of a command shows -/

/-- Every open finds these bytes, or fails for this reason, and no read fails. -/
structure Medium.Shows (m : Medium) (content : Except IoError Content) : Prop where
  shown : m.content = content
  reach : m.reach = some fileReach
  faultless : ∀ c, content = .ok c → m.Faultless c

namespace Medium.Shows

variable {m m' : Medium} {content : Except IoError Content}

theorem of_leadsTo (shows : m.Shows content) (leads : m.LeadsTo m') : m'.Shows content where
  shown := leads.content.trans shows.shown
  reach := leads.reach.trans shows.reach
  faultless c := fun found => leads.faultless c (shows.faultless c found)

/-- The medium of a file shows what the file holds. -/
theorem ofFile (files : FileTree) (path : String) :
    (Medium.ofFile files path).Shows (Medium.contentOfFile files path) where
  shown := rfl
  reach := rfl
  faultless c := fun found =>
    { content := found, admitting := rfl, planned := by simp [Medium.ofFile], unrefused := rfl,
      sound := ⟨rfl, by simp [Medium.ofFile]⟩ }

/-- When the files have changed, a medium that has found bytes shows what is there now. -/
theorem refresh {c : Content} (shows : m.Shows (.ok c)) (files : FileTree) (path : String) :
    (m.refresh files path).Shows (Medium.contentOfFile files path) where
  shown := rfl
  reach := shows.reach
  faultless _ := fun found => { shows.faultless c rfl with content := found }

end Medium.Shows

/-! ### What a look finds -/

namespace Command

/-- The package with the mode in which the archive has its data, unless it has none. -/
def choiceIn (layout : Layout) (content : Except IoError Content) (package : String) :
    Option PackageDescription :=
  match content with
  | .error _ => none
  | .ok c => choiceOf package (classifyIn c (some Medium.fileReach) layout package)

/-- A package is chosen under its own name, from bytes that are there. -/
theorem choiceIn_eq_some {layout : Layout} {content : Except IoError Content} {package : String}
    {d : PackageDescription} (chosen : choiceIn layout content package = some d) :
    ∃ c, content = .ok c ∧ d.package = package ∧
      classifyIn c (some Medium.fileReach) layout package = .ok d.mode ∧ d.mode ≠ .none := by
  unfold choiceIn at chosen
  split at chosen
  · cases chosen
  · rename_i c
    obtain ⟨same, outcome, some_data⟩ := choiceOf_eq_some chosen
    exact ⟨c, rfl, same, outcome, some_data⟩

end Command

/-- A look that finds data finds what the bytes say. -/
theorem classify_of_shows {m : Medium} {content : Except IoError Content} (shows : m.Shows content)
    (layout : Layout) (package : String) :
    ∃ outcome m', classify layout package m = (outcome, m') ∧ m'.Shows content ∧
      choiceOf package outcome = Command.choiceIn layout content package := by
  have leads := (leads_classify layout package m).1
  cases content with
  | ok c =>
      obtain ⟨m', -, -, looked⟩ := classify_of_faultless (shows.faultless c rfl) layout package
      rw [looked] at leads
      rw [shows.reach] at looked
      exact ⟨_, m', looked, shows.of_leadsTo leads, rfl⟩
  | error cause =>
      rcases looked : classify layout package m with ⟨outcome, m'⟩
      rw [looked] at leads
      refine ⟨outcome, m', rfl, shows.of_leadsTo leads, ?_⟩
      have unopened : ∃ e m₁, Archive.openOn m = (.error e, m₁) := by
        rcases Archive.openOn_cases m with ⟨e, m₁, opened, -⟩ | ⟨a, m₁, -, -, -, -, found, -⟩
        · exact ⟨e, m₁, opened⟩
        · rw [shows.shown] at found
          cases found
      obtain ⟨e, m₁, opened⟩ := unopened
      simp only [classify, contains, locate, opened] at looked
      cases looked
      rfl

/-! ### Where a session stands -/

namespace Session

/-- The session has these packages still to look at. -/
structure Faces (s : Session) (layout : Layout) (chunkSize : Nat) (remaining : List String) :
    Prop where
  layout : s.layout = layout
  chunkSize : s.chunkSize = chunkSize
  place : ∃ index, s.nextIndex? = some index ∧ s.packages.drop index = remaining

/-- The session has chosen a package, has not begun to move its data, and has the others still to
look at. -/
structure Serves (s : Session) (d : PackageDescription) : Prop where
  package : s.currentPackage? = some d.package
  mode : s.mode = d.mode
  stream : d.mode = .fullStream →
    s.stream = some { package := d.package, chunkSize := s.chunkSize }

theorem Faces.withStream {s : Session} {layout : Layout} {chunkSize : Nat}
    {remaining : List String} (faces : s.Faces layout chunkSize remaining)
    (stream : Option FullStream) : ({ s with stream } : Session).Faces layout chunkSize remaining :=
  ⟨faces.layout, faces.chunkSize, faces.place⟩

theorem nextPackage_of_nextIndex {s : Session} {index : Nat} (next : s.nextIndex? = some index)
    (m : Medium) :
    s.nextPackage m = ({ s with stream := none } : Session).seekPackage (s.dropStream m).2 index
      (s.packages.drop index) := by
  have dropped := s.session_dropStream m
  unfold nextPackage
  generalize s.dropStream m = result at dropped
  obtain ⟨s₁, m₁⟩ := result
  simp only at dropped
  subst dropped
  have same_place : nextIndex? { s with stream := none } = s.nextIndex? := rfl
  simp only [same_place, next]

section Steps

variable {s : Session} {layout : Layout} {chunkSize : Nat} {package : String} {rest : List String}
  {m : Medium} {content : Except IoError Content}

/-- A session that has looked at all packages gives none. -/
theorem nextPackage_of_faces_nil (faces : s.Faces layout chunkSize []) (m : Medium) :
    ∃ s' m', s.nextPackage m = (.ok .noMorePackages, s', m') := by
  obtain ⟨index, next, none_left⟩ := faces.place
  rw [nextPackage_of_nextIndex next, none_left]
  exact ⟨_, _, rfl⟩

/-- A package without data is passed over: the session might have looked at it before. -/
theorem nextPackage_of_passed (faces : s.Faces layout chunkSize (package :: rest))
    (shows : m.Shows content) (passed : Command.choiceIn layout content package = none) :
    ∃ (s' : Session) (m' : Medium), s.nextPackage m = s'.nextPackage m' ∧
      s'.Faces layout chunkSize rest ∧ m'.Shows content := by
  obtain ⟨index, next, left⟩ := faces.place
  have behind : s.packages.drop (index + 1) = rest := by
    rw [← List.tail_drop, left, List.tail_cons]
  obtain ⟨outcome, m₁, looked, shows₁, choice⟩ :=
    classify_of_shows (shows.of_leadsTo (s.leadsTo_dropStream m)) s.layout package
  rw [faces.layout, passed] at choice
  let s₁ : Session := { s with place := .at index, stream := none }
  have next₁ : s₁.nextIndex? = some (index + 1) := rfl
  refine ⟨s₁, m₁, ?_, ⟨faces.layout, faces.chunkSize, index + 1, rfl, behind⟩, shows₁⟩
  rw [nextPackage_of_nextIndex next, left,
    seekPackage_cons (s := { s with stream := none }) looked, choice,
    nextPackage_of_nextIndex next₁]
  have same : s₁.packages.drop (index + 1) = rest := behind
  rw [same]
  rfl

/-- A package with data is given, unless that would be a misuse. -/
theorem nextPackage_of_chosen (faces : s.Faces layout chunkSize (package :: rest))
    (shows : m.Shows content) {d : PackageDescription}
    (chosen : Command.choiceIn layout content package = some d) :
    ∃ s' m', s.nextPackage m = (answerFor chunkSize d, s', m') ∧
      s'.Faces layout chunkSize rest ∧ m'.Shows content ∧
      (answerFor chunkSize d = .ok (.package d) → s'.Serves d) := by
  obtain ⟨index, next, left⟩ := faces.place
  have here : s.packages[index]? = some package := by
    rw [← List.head?_drop, left, List.head?_cons]
  have behind : s.packages.drop (index + 1) = rest := by
    rw [← List.tail_drop, left, List.tail_cons]
  obtain ⟨outcome, m₁, looked, shows₁, choice⟩ :=
    classify_of_shows (shows.of_leadsTo (s.leadsTo_dropStream m)) s.layout package
  rw [faces.layout, chosen] at choice
  obtain ⟨-, -, same, -⟩ := Command.choiceIn_eq_some chosen
  let s₁ : Session := { s with stream := none }
  obtain ⟨stream, picked⟩ := s₁.choose_eq index d
  have prepared := congrArg Session.stream ((congrArg Prod.snd picked).symm.trans
    (choose_of_no_stream (s := s₁) rfl index d.package d.mode))
  have size : s₁.chunkSize = chunkSize := faces.chunkSize
  have given : s.nextPackage m = (answerFor chunkSize d,
      { s₁ with place := .at index, mode := d.mode, stream }, m₁) := by
    rw [nextPackage_of_nextIndex next, left, seekPackage_cons (s := s₁) looked, choice]
    simp only [picked, size]
  refine ⟨_, m₁, given, ⟨faces.layout, faces.chunkSize, index + 1, rfl, behind⟩, shows₁, ?_⟩
  intro admitted
  constructor
  · rw [same]
    exact here
  · rfl
  · intro full
    have small : s₁.chunkSize < FullStream.chunkLimit := by
      unfold answerFor at admitted
      split at admitted
      · cases admitted
      · rename_i fits
        rw [size]
        exact Nat.lt_of_not_le fun large => fits ⟨full, large⟩
    exact prepared.trans (if_pos ⟨full, small⟩)

end Steps
end Session

namespace Transport

variable {t : Transport} {s : Session} {layout : Layout} {chunkSize : Nat} {package : String}
  {rest : List String} {m : Medium} {content : Except IoError Content}

/-- A transport passes over a package without data as its session does. -/
theorem nextPackage_of_passed (begun : t.session = some s)
    (faces : s.Faces layout chunkSize (package :: rest)) (shows : m.Shows content)
    (passed : Command.choiceIn layout content package = none) :
    ∃ s' m', t.nextPackage m = ({ t with session := some s' } : Transport).nextPackage m' ∧
      s'.Faces layout chunkSize rest ∧ m'.Shows content := by
  obtain ⟨s', m', same, faces', shows'⟩ := Session.nextPackage_of_passed faces shows passed
  refine ⟨s', m', ?_, faces', shows'⟩
  simp only [nextPackage, begun, same]

/-- It gives a package with data as its session does. -/
theorem nextPackage_of_chosen (begun : t.session = some s)
    (faces : s.Faces layout chunkSize (package :: rest)) (shows : m.Shows content)
    {d : PackageDescription} (chosen : Command.choiceIn layout content package = some d) :
    ∃ s' m', t.nextPackage m = (answerFor chunkSize d, { t with session := some s' }, m') ∧
      s'.Faces layout chunkSize rest ∧ m'.Shows content ∧
      (answerFor chunkSize d = .ok (.package d) → s'.Serves d) := by
  obtain ⟨s', m', given, stands⟩ := Session.nextPackage_of_chosen faces shows chosen
  exact ⟨s', m', nextPackage_of_session begun given, stands⟩

end Transport

/-! ### Packages served one by one -/

/-- Giving up the stream under way leaves the rest of the session as it is. -/
theorem Transport.abort_of_session {t : Transport} {s : Session} (begun : t.session = some s)
    (m : Medium) :
    ∃ stream, (t.abort m).2.1.session = some { s with stream } := by
  obtain ⟨stream, same, -⟩ := s.session_abort m
  refine ⟨stream, ?_⟩
  simp only [abort, begun]
  exact congrArg some same

namespace Command

/-- What is to be shown for a package is a misuse or the package. -/
theorem answerFor_cases (chunkSize : Nat) (d : PackageDescription) :
    answerFor chunkSize d = .error .chunkTooLarge ∨ answerFor chunkSize d = .ok (.package d) := by
  unfold answerFor
  split
  · exact Or.inl rfl
  · exact Or.inr rfl

/-- Making a file leaves the archive a file, if perhaps an empty one. -/
theorem contentOfFile_of_createFile {files files' : FileTree} {archive : String} {c : Content}
    {path : PathName} {place : Location}
    (content : Medium.contentOfFile files archive = .ok c)
    (made : files.createFile path = .ok (place, files')) :
    ∃ c', Medium.contentOfFile files' archive = .ok c' := by
  obtain ⟨-, no_directory, -, rfl⟩ := FileTree.createFile_eq_ok made
  unfold Medium.contentOfFile at content ⊢
  split at content
  · rename_i read
    obtain ⟨c', read'⟩ := FileTree.readFile_write read no_directory #[]
    rw [read']
    exact ⟨c', rfl⟩
  · cases content

/-- What stays the same while packages are restored. -/
structure Job where
  /-- The path of the archive. -/
  archive : String
  /-- The path of the directory that receives files. -/
  out : String
  layout : Layout
  chunkSize : Nat

namespace Job

/-- What the archive has for a package of which the data is to be moved: the outcome, and the
bytes of the package's file.  If they cannot all be moved, it is why. -/
def held [Zip.Codecs] (j : Job) (content : Except IoError Content) (d : PackageDescription) :
    Except PackageFailure (Outcome × List UInt8) :=
  match content with
  | .error _ => .error .rejected
  | .ok c =>
      if d.mode = .fullStream then
        match streamHeldIn c (some Medium.fileReach) j.layout d.package with
        | .ok bytes => .ok (.streamed bytes.length, bytes)
        | .error .packageRejected => .error .rejected
        | .error status => .error (.status status)
      else
        match recordsHeldIn c (some Medium.fileReach) j.layout d.package with
        | some records => .ok (.records records.length, records.flatMap Record.frame)
        | none => .error (.status .error)

/-- Fill the file of a package, or remove it. -/
def fill [Zip.Codecs] (j : Job) (files : FileTree) (place : Location) (d : PackageDescription) :
    Outcome × FileTree :=
  match j.held (Medium.contentOfFile files j.archive) d with
  | .ok (outcome, bytes) => (outcome, files.write place bytes.toArray)
  | .error why => (.failed why, files.remove place)

/-- Restore one package. -/
def serve [Zip.Codecs] (j : Job) (files : FileTree) (d : PackageDescription) : Outcome × FileTree :=
  if !isFileName d.package then (.failed .badName, files)
  else
    let path := outputPath j.out d.package d.mode
    match files.createFile (.ofText path) with
    | .error fault => (.failed (.fileUnmade path fault), files)
    | .ok (place, files) => j.fill files place d

/-- The package as the archive has it among these files. -/
def choice? (j : Job) (files : FileTree) (package : String) : Option PackageDescription :=
  choiceIn j.layout (Medium.contentOfFile files j.archive) package

/-- Restore packages, one after the other, up to a misuse. -/
def serveAll [Zip.Codecs] (j : Job) (files : FileTree) :
    List String → List PackageResult × Option Misuse × FileTree
  | [] => ([], none, files)
  | package :: rest =>
      match j.choice? files package with
      | none => j.serveAll files rest
      | some d =>
          match answerFor j.chunkSize d with
          | .error misuse => ([], some misuse, files)
          | .ok _ =>
              let (outcome, files) := j.serve files d
              let (results, misuse, files) := j.serveAll files rest
              ({ package := d.package, mode := d.mode, outcome } :: results, misuse, files)

/-- The report of packages that have been served. -/
def report (served : List PackageResult × Option Misuse × FileTree) : Report × FileTree :=
  match served with
  | (results, some misuse, files) => (.ofMisuse (results.map PackageResult.line) misuse, files)
  | (results, none, files) => (reportRestored results, files)

section Report

variable (served : List PackageResult × Option Misuse × FileTree)

/-- The report has a line for each package that has been served. -/
@[simp] theorem output_report : (report served).1.output = served.1.map PackageResult.line := by
  rcases served with ⟨results, _ | misuse, files⟩ <;> rfl

@[simp] theorem files_report : (report served).2 = served.2.2 := by
  rcases served with ⟨results, _ | misuse, files⟩ <;> rfl

/-- The code tells of a misuse, or else of a failure. -/
theorem code_report : (report served).1.code =
    if served.2.1 ≠ none then misuseCode
    else if served.1.any (·.outcome.isFailure) then partialFailureCode else 0 := by
  rcases served with ⟨results, _ | misuse, files⟩
  · have none_failed : (results.filter (·.outcome.isFailure)).length = 0 ↔
        results.any (·.outcome.isFailure) = false := by
      rw [List.length_eq_zero_iff, List.filter_eq_nil_iff, List.any_eq_false]
    simp only [report, reportRestored, ne_eq, not_true_eq_false, if_false, none_failed]
    cases results.any (·.outcome.isFailure) <;> rfl
  · rfl

end Report
end Job

/-! ### The restore of one package -/

/-- A restore under way does a job, with these packages still to look at. -/
structure Job.Under (j : Job) (r : Restoring) (remaining : List String) : Prop where
  archive : r.archive = j.archive
  out : r.out = j.out
  session : ∃ s, r.transport.session = some s ∧ s.Faces j.layout j.chunkSize remaining
  shows : r.medium.Shows (Medium.contentOfFile r.files j.archive)

/-- It has chosen a package from bytes that are there, and has not begun to move its data. -/
structure Job.Serving (j : Job) (r : Restoring) (c : Content) (d : PackageDescription)
    (remaining : List String) : Prop where
  archive : r.archive = j.archive
  out : r.out = j.out
  session : ∃ s, r.transport.session = some s ∧ s.Faces j.layout j.chunkSize remaining ∧ s.Serves d
  content : Medium.contentOfFile r.files j.archive = .ok c
  shows : r.medium.Shows (.ok c)

/-- What has been done for a package is what was to be, and the others are still to look at. -/
structure Job.Done (j : Job) (did : Outcome × Restoring) (due : Outcome × FileTree)
    (remaining : List String) : Prop where
  outcome : did.1 = due.1
  files : did.2.files = due.2
  under : j.Under did.2 remaining

section Serving

variable {j : Job} {r : Restoring} {c : Content} {d : PackageDescription}
  {remaining : List String}

/-- Between packages, the files may be changed. -/
theorem Job.Under.withFiles (under : j.Under r remaining)
    (content : Medium.contentOfFile r.files j.archive = .ok c) (files : FileTree) :
    j.Under (r.withFiles files) remaining where
  archive := under.archive
  out := under.out
  session := under.session
  shows := by
    have shows := under.shows
    rw [content] at shows
    rw [← under.archive]
    exact shows.refresh files r.archive

/-- Whatever becomes of the stream, the job goes on behind the package. -/
theorem Job.Serving.under (serving : j.Serving r c d remaining) {t : Transport} {m : Medium}
    {s : Session} (begun : r.transport.session = some s) (stream : Option FullStream)
    (goes : t.session = some { s with stream }) (leads : r.medium.LeadsTo m) :
    j.Under { r with transport := t, medium := m } remaining := by
  obtain ⟨s', begun', faces, -⟩ := serving.session
  rw [begun] at begun'
  cases begun'
  refine ⟨serving.archive, serving.out, ⟨_, goes, faces.withStream stream⟩, ?_⟩
  rw [serving.content]
  exact serving.shows.of_leadsTo leads

/-- The records of the package are moved into the file, or the file is removed. -/
theorem Job.Serving.restoreRecords [Zip.Codecs] (serving : j.Serving r c d remaining)
    (records : d.mode = .keyValue) (place : Location) :
    j.Done (r.restoreRecords place) (j.fill r.files place d) remaining := by
  obtain ⟨s, begun, faces, serves⟩ := serving.session
  have mode : s.mode = .keyValue := serves.mode.trans records
  have not_stream : d.mode ≠ .fullStream := by
    rw [records]
    decide
  have leads := r.transport.leadsTo_transferKeyValue r.medium
    ({ output := .willing } : RecordWriter)
  have faultless := serving.shows.faultless c rfl
  have reach := serving.shows.reach
  have due : j.held (Medium.contentOfFile r.files j.archive) d =
      match recordsHeldIn c r.medium.reach s.layout d.package with
      | some records => .ok (.records records.length, records.flatMap Record.frame)
      | none => .error (.status .error) := by
    rw [serving.content, reach, faces.layout]
    exact if_neg not_stream
  cases held : recordsHeldIn c r.medium.reach s.layout d.package with
  | none =>
      obtain ⟨e, m, w, moved⟩ := transferRecords_of_unheld faultless held
      have answer : r.transport.transferKeyValue r.medium ({ output := .willing } : RecordWriter) =
          (.ok .error, m, w) := by
        simp only [Transport.transferKeyValue, begun, Session.transferKeyValue, serves.package,
          mode, ne_eq, not_true_eq_false, if_false, moved]
        rfl
      rw [answer] at leads
      have behind := serving.under begun s.stream (t := r.transport) begun leads
      rw [held] at due
      simp only [Restoring.restoreRecords, answer, Restoring.discard, Job.fill, due]
      exact ⟨rfl, rfl, behind.withFiles serving.content _⟩
  | some records =>
      obtain ⟨m, w, moved, count, taken⟩ := transferRecords_of_held faultless held
      have answer : r.transport.transferKeyValue r.medium ({ output := .willing } : RecordWriter) =
          (.ok .ok, m, w) := by
        simp only [Transport.transferKeyValue, begun, Session.transferKeyValue, serves.package,
          mode, ne_eq, not_true_eq_false, if_false, moved]
      rw [answer] at leads
      have behind := serving.under begun s.stream (t := r.transport) begun leads
      rw [held] at due
      simp only [Restoring.restoreRecords, answer, Job.fill, due, count, taken]
      exact ⟨rfl, rfl, behind.withFiles serving.content _⟩

/-- The stream of the package is moved into the file, in whatever chunks, or the file is
removed. -/
theorem Job.Serving.restoreStream [Zip.Codecs] (serving : j.Serving r c d remaining)
    (full : d.mode = .fullStream) (some_size : 0 < j.chunkSize) (place : Location) :
    j.Done (r.restoreStream place) (j.fill r.files place d) remaining := by
  obtain ⟨s, begun, faces, serves⟩ := serving.session
  have some_chunk : 0 < s.chunkSize := by
    rw [faces.chunkSize]
    exact some_size
  obtain ⟨stream, m, o, moved, taken⟩ := Transport.streamMore_of_comesTo begun
    (serves.mode.trans full) (serves.stream full) (.unopened rfl)
    (serving.shows.faultless c rfl) some_chunk Output.unfailing_willing 0
  have kept := r.transport.keeps_streamMore r.medium .willing 0
  rw [moved] at kept
  have behind := serving.under begun (some stream)
    (t := { r.transport with session := some { s with stream := some stream } }) rfl kept.medium
  have due : j.held (Medium.contentOfFile r.files j.archive) d =
      match streamHeldIn c r.medium.reach s.layout d.package with
      | .ok bytes => .ok (.streamed bytes.length, bytes)
      | .error .packageRejected => .error .rejected
      | .error status => .error (.status status) := by
    rw [serving.content, serving.shows.reach, faces.layout]
    exact if_pos full
  simp only [Restoring.restoreStream, Transport.streamAll, moved, Job.fill, due]
  cases held : streamHeldIn c r.medium.reach s.layout d.package with
  | ok bytes =>
      have filled : o.taken = bytes := taken bytes held
      simp only [Except.map, Nat.zero_add, filled]
      exact ⟨rfl, rfl, behind.withFiles serving.content _⟩
  | error status =>
      obtain ⟨ended, aborted⟩ := Transport.abort_of_session
        (t := { r.transport with session := some { s with stream := some stream } }) rfl m
      have leads := kept.medium.trans (Transport.keeps_abort
        { r.transport with session := some { s with stream := some stream } } m).medium
      have given_up := serving.under begun ended aborted leads
      cases status with
      | packageRejected => exact ⟨rfl, rfl, behind.withFiles serving.content _⟩
      | _ => exact ⟨rfl, rfl, given_up.withFiles serving.content _⟩

/-- A chosen package is restored as the archive has it. -/
theorem Job.Serving.restorePackage [Zip.Codecs] (serving : j.Serving r c d remaining)
    (some_data : d.mode ≠ .none) (some_size : 0 < j.chunkSize) :
    j.Done (r.restorePackage d) (j.serve r.files d) remaining := by
  obtain ⟨s, begun, faces, serves⟩ := serving.session
  unfold Restoring.restorePackage Job.serve
  rw [← serving.out]
  cases named : isFileName d.package with
  | false => exact ⟨rfl, rfl, serving.under begun s.stream begun (.refl _)⟩
  | true =>
      simp only [Bool.not_true, Bool.false_eq_true, if_false]
      cases made : r.files.createFile (.ofText (outputPath r.out d.package d.mode)) with
      | error fault =>
          obtain ⟨ended, aborted⟩ := r.transport.abort_of_session begun r.medium
          have leads := (r.transport.keeps_abort r.medium).medium
          by_cases full : d.mode = .fullStream
          · simp only [if_pos full]
            exact ⟨rfl, rfl, serving.under begun ended aborted leads⟩
          · simp only [if_neg full]
            exact ⟨rfl, rfl, serving.under begun s.stream begun (.refl _)⟩
      | ok file =>
          obtain ⟨place, files⟩ := file
          obtain ⟨c', content⟩ := contentOfFile_of_createFile serving.content made
          have emptied : j.Serving (r.withFiles files) c' d remaining := by
            refine ⟨serving.archive, serving.out, serving.session, content, ?_⟩
            rw [← content, ← serving.archive]
            exact serving.shows.refresh files r.archive
          by_cases full : d.mode = .fullStream
          · simp only [if_pos full]
            exact emptied.restoreStream full some_size place
          · simp only [if_neg full]
            refine emptied.restoreRecords ?_ place
            cases mode : d.mode with
            | none => exact absurd mode some_data
            | keyValue => rfl
            | fullStream => exact absurd mode full

end Serving

/-! ### The restore of many packages -/

/-- A restore of packages serves one after the other.  The induction is on those that are still to
look at; each call for the next package looks at one or more of them. -/
theorem restoreAll_eq_serveAll [Zip.Codecs] {j : Job} (some_size : 0 < j.chunkSize) {r : Restoring}
    {remaining asked : List String} (under : j.Under r remaining)
    (enough : remaining.length ≤ asked.length) :
    (restoreAll r asked).1 = (j.serveAll r.files remaining).1 ∧
      (restoreAll r asked).2.1 = (j.serveAll r.files remaining).2.1 ∧
      (restoreAll r asked).2.2.files = (j.serveAll r.files remaining).2.2 := by
  induction remaining generalizing r asked with
  | nil =>
      obtain ⟨s, begun, faces⟩ := under.session
      cases asked with
      | nil => exact ⟨rfl, rfl, rfl⟩
      | cons _ asked =>
          obtain ⟨s', m, given⟩ := Session.nextPackage_of_faces_nil faces r.medium
          have given := Transport.nextPackage_of_session begun given
          simp only [restoreAll, given]
          exact ⟨rfl, rfl, rfl⟩
  | cons package rest ih =>
      obtain ⟨s, begun, faces⟩ := under.session
      obtain ⟨first, asked, rfl⟩ := List.exists_cons_of_length_pos
        (Nat.lt_of_lt_of_le (Nat.succ_pos _) enough)
      have enough_left : rest.length ≤ asked.length := Nat.le_of_succ_le_succ enough
      cases choice : j.choice? r.files package with
      | none =>
          obtain ⟨s', m, passed, faces', shows'⟩ :=
            Transport.nextPackage_of_passed begun faces under.shows choice
          let r' : Restoring :=
            { r with transport := { r.transport with session := some s' }, medium := m }
          have unseen : restoreAll r (first :: asked) = restoreAll r' (first :: asked) := by
            simp only [restoreAll, passed, r']
          have behind : j.Under r' rest := ⟨under.archive, under.out, ⟨s', rfl, faces'⟩, shows'⟩
          rw [unseen]
          simp only [Job.serveAll, choice]
          exact ih behind (Nat.le_succ_of_le enough_left)
      | some d =>
          obtain ⟨c, content, -, -, some_data⟩ := choiceIn_eq_some choice
          obtain ⟨s', m, given, faces', shows', serves⟩ :=
            Transport.nextPackage_of_chosen begun faces under.shows choice
          simp only [restoreAll, given, Job.serveAll, choice]
          rcases answerFor_cases j.chunkSize d with refused | admitted
          · rw [refused]
            exact ⟨rfl, rfl, rfl⟩
          · rw [content] at shows'
            have serving : j.Serving { r with
                transport := { r.transport with session := some s' }, medium := m } c d rest :=
              ⟨under.archive, under.out, ⟨s', rfl, faces', serves admitted⟩, content, shows'⟩
            have done := serving.restorePackage some_data some_size
            rw [admitted]
            obtain ⟨results, misuse, files⟩ := ih done.under enough_left
            simp only [done.outcome, results, misuse, files, done.files, and_self]

/-- A transport that is opened has settings that have been checked. -/
theorem create_of_openTransport {environment : String → Option String} {files : FileTree}
    {s : SourceOptions} {t : Transport} (opened : openTransport environment files s = .ok t) :
    Transport.create t.settings = .ok t := by
  unfold openTransport at opened
  split at opened
  · cases opened
  · cases loaded : loadOverrides environment files s with
    | error failure => simp [bind, Except.bind, loaded] at opened
    | ok changes =>
        simp only [bind, Except.bind, loaded] at opened
        split at opened
        · rename_i t' created
          cases opened
          have fresh := Transport.session_of_create created
          subst fresh
          exact created
        · cases opened

/-- Its chunks have some size. -/
theorem chunkSize_of_create {settings : Settings} {t : Transport}
    (created : Transport.create settings = .ok t) : 0 < settings.chunkSize := by
  apply Nat.pos_of_ne_zero
  intro no_size
  rw [Transport.create, Settings.validate, Settings.fault?, if_pos no_size] at created
  cases created

/-- The job of a transport that has been opened. -/
def Job.of (t : Transport) (archive out : String) : Job where
  archive := archive
  out := out
  layout := t.settings.layout
  chunkSize := t.settings.chunkSize

/-- The packages that a restore has chosen, and what has become of each. -/
def restoredPackages [Zip.Codecs] (environment : String → Option String) (files : FileTree)
    (s : SourceOptions) (out : String) (token : Option Nat) (packages : List String) :
    List PackageResult :=
  match openTransport environment files s with
  | .error _ => []
  | .ok t =>
      match files.makeDirectories (.ofText out) with
      | (.error _, _) => []
      | (.ok _, files) =>
          let (_, transport, medium) :=
            t.start (.ofFile files s.archive) (token.getD t.currentToken) packages
          (restoreAll { archive := s.archive, out, files, transport, medium } packages).1

/-- The restore of packages with a transport that has been opened serves them one after the other,
once there is a directory for their files. -/
theorem restorePackages_eq [Zip.Codecs] {environment : String → Option String}
    {files files' : FileTree} {s : SourceOptions} {t : Transport} {out : String}
    (opened : openTransport environment files s = .ok t)
    (made : files.makeDirectories (.ofText out) = (.ok (), files')) (token : Option Nat)
    (packages : List String) :
    restorePackages environment files s out token packages =
        Job.report ((Job.of t s.archive out).serveAll files' packages) ∧
      restoredPackages environment files s out token packages =
        ((Job.of t s.archive out).serveAll files' packages).1 := by
  obtain ⟨-, not_begun⟩ := openTransport_eq_ok opened
  let r : Restoring :=
    { archive := s.archive, out, files := files'
      transport := { t with session := some (.start t.settings (token.getD t.currentToken)
        packages) }
      medium := .ofFile files' s.archive }
  have started : t.start (.ofFile files' s.archive) (token.getD t.currentToken) packages =
      (.ok, r.transport, r.medium) := by
    simp only [Transport.start, not_begun, r]
  have under : (Job.of t s.archive out).Under r packages :=
    ⟨rfl, rfl, ⟨_, rfl, rfl, rfl, 0, rfl, List.drop_zero⟩, .ofFile files' s.archive⟩
  have served := restoreAll_eq_serveAll
    (chunkSize_of_create (create_of_openTransport opened)) under (Nat.le_refl _)
  constructor
  · have restored : restorePackages environment files s out token packages =
        Job.report ((restoreAll r packages).1, (restoreAll r packages).2.1,
          (restoreAll r packages).2.2.files) := by
      simp only [restorePackages, opened, made, started]
      rcases restoreAll r packages with ⟨results, _ | misuse, r'⟩ <;> rfl
    rw [restored, served.1, served.2.1, served.2.2]
  · simp only [restoredPackages, opened, made, started]
    exact served.1

/-! ### The size of the chunks -/

/-- If there are chunks of either size, it makes no difference which of them a job has. -/
theorem Job.serveAll_ignores_chunk_size [Zip.Codecs] {j : Job} {size : Nat}
    (small : j.chunkSize < FullStream.chunkLimit) (small' : size < FullStream.chunkLimit)
    (files : FileTree) (packages : List String) :
    ({ j with chunkSize := size } : Job).serveAll files packages = j.serveAll files packages := by
  induction packages generalizing files with
  | nil => rfl
  | cons package rest ih =>
      have same_choice : ({ j with chunkSize := size } : Job).choice? files package =
          j.choice? files package := rfl
      simp only [serveAll, same_choice]
      cases j.choice? files package with
      | none => exact ih files
      | some d =>
          have same : ({ j with chunkSize := size } : Job).serve files d = j.serve files d := rfl
          simp only [answerFor_of_small small, answerFor_of_small small', same, ih]

/-- Settings are no better or worse for chunks of another size. -/
theorem create_with_chunkSize {settings : Settings} (some_chunk : 0 < settings.chunkSize)
    {size : Nat} (some_size : 0 < size) :
    Transport.create { settings with chunkSize := size } =
      (Transport.create settings).map fun t =>
        { settings := { t.settings with chunkSize := size } } := by
  have same : ({ settings with chunkSize := size } : Settings).fault? = settings.fault? := by
    simp only [Settings.fault?, Nat.ne_of_gt some_chunk, Nat.ne_of_gt some_size, if_false]
  simp only [Transport.create, Settings.validate, same]
  cases settings.fault? <;> rfl

/-- The size that the command line gives is laid over the other changes, which do not depend on
it. -/
theorem loadOverrides_of_chunkSize (environment : String → Option String) (files : FileTree)
    (s : SourceOptions) :
    ∃ others : Except Failure Overrides, ∀ given,
      loadOverrides environment files { s with chunkSize := given } =
        others.map (·.merge { chunkSize := given }) := by
  obtain ⟨archive, config, chunkSize⟩ := s
  unfold loadOverrides
  cases Overrides.ofVariables environment with
  | error cause =>
      cases config with
      | none => exact ⟨.error (.settingsUnusable cause), fun _ => rfl⟩
      | some path =>
          simp only
          cases readSettingsFile files path with
          | error cause' => exact ⟨.error (.settingsUnreadable path cause'), fun _ => rfl⟩
          | ok changes => exact ⟨.error (.settingsUnusable cause), fun _ => rfl⟩
  | ok set =>
      cases config with
      | none => exact ⟨.ok (({} : Overrides).merge set), fun _ => rfl⟩
      | some path =>
          simp only
          cases readSettingsFile files path with
          | error cause => exact ⟨.error (.settingsUnreadable path cause), fun _ => rfl⟩
          | ok changes => exact ⟨.ok (changes.merge set), fun _ => rfl⟩

/-- Whether a transport is opened, and with which settings otherwise, does not depend on the size
that the command line gives. -/
theorem openTransport_of_chunkSize (environment : String → Option String) (files : FileTree)
    (s : SourceOptions) :
    ∃ answer : Except Failure Settings, ∀ size, 0 < size →
      openTransport environment files { s with chunkSize := some size } =
        answer.map fun settings => { settings := { settings with chunkSize := size } } := by
  refine ⟨(openTransport environment files { s with chunkSize := some 1 }).map (·.settings), ?_⟩
  intro size some_size
  have created : ∀ changes : Overrides,
      Transport.create (Settings.apply {} (changes.merge { chunkSize := some size })) =
        (Transport.create (Settings.apply {} (changes.merge { chunkSize := some 1 }))).map
          fun t => { settings := { t.settings with chunkSize := size } } := by
    intro changes
    have some_chunk :
        0 < (Settings.apply {} (changes.merge { chunkSize := some 1 })).chunkSize := Nat.one_pos
    exact create_with_chunkSize some_chunk some_size
  obtain ⟨others, loaded⟩ := loadOverrides_of_chunkSize environment files s
  unfold openTransport
  cases files.isFile (.ofText s.archive) with
  | false => rfl
  | true =>
      simp only [Bool.not_true, Bool.false_eq_true, if_false, loaded]
      cases others with
      | error failure => rfl
      | ok changes =>
          simp only [Except.map, bind, Except.bind, created]
          cases Transport.create (Settings.apply {} (changes.merge { chunkSize := some 1 })) <;> rfl

/-- A restore does not depend on the size of its chunks, as long as that is at least one and no
larger than any buffer can be: the report and the files afterwards are the same for any two sizes,
given on the command line or by whatever settings agree otherwise. -/
theorem restorePackages_ignores_chunk_size [Zip.Codecs] {size size' : Nat} (some_size : 1 ≤ size)
    (some_size' : 1 ≤ size') (small : size < FullStream.chunkLimit)
    (small' : size' < FullStream.chunkLimit) :
    (∀ (environment : String → Option String) (files : FileTree) (s : SourceOptions)
      (out : String) (token : Option Nat) (packages : List String),
      restorePackages environment files { s with chunkSize := some size } out token packages =
        restorePackages environment files { s with chunkSize := some size' } out token packages) ∧
    ∀ (environment environment' : String → Option String) (files : FileTree)
      (s s' : SourceOptions) (t t' : Transport) (out : String) (token : Option Nat)
      (packages : List String), s'.archive = s.archive →
      openTransport environment files s = .ok t →
      openTransport environment' files s' = .ok t' →
      t.settings.chunkSize = size → t'.settings = { t.settings with chunkSize := size' } →
      restorePackages environment files s out token packages =
        restorePackages environment' files s' out token packages := by
  have of_settings : ∀ (environment environment' : String → Option String) (files : FileTree)
      (s s' : SourceOptions) (t t' : Transport) (out : String) (token : Option Nat)
      (packages : List String), s'.archive = s.archive →
      openTransport environment files s = .ok t →
      openTransport environment' files s' = .ok t' →
      t.settings.chunkSize = size → t'.settings = { t.settings with chunkSize := size' } →
      restorePackages environment files s out token packages =
        restorePackages environment' files s' out token packages := by
    intro environment environment' files s s' t t' out token packages archive opened opened' sized
      settings
    rcases made : files.makeDirectories (.ofText out) with ⟨fault | done, files'⟩
    · simp only [restorePackages, opened, opened', made]
    · have job : Job.of t' s'.archive out =
          { Job.of t s.archive out with chunkSize := size' } := by
        simp only [Job.of, settings, archive]
        rfl
      rw [(restorePackages_eq opened made token packages).1,
        (restorePackages_eq opened' made token packages).1, job]
      have small_here : (Job.of t s.archive out).chunkSize < FullStream.chunkLimit := by
        rw [← sized] at small
        exact small
      rw [Job.serveAll_ignores_chunk_size small_here small']
  refine ⟨?_, of_settings⟩
  intro environment files s out token packages
  obtain ⟨answer, opened⟩ := openTransport_of_chunkSize environment files s
  cases answer with
  | error failure =>
      have refused : ∀ n, 0 < n → restorePackages environment files { s with chunkSize := some n }
          out token packages = (.ofFailure [] failure, files) := by
        intro n some_chunk
        simp only [restorePackages, opened n some_chunk, Except.map]
      rw [refused size some_size, refused size' some_size']
  | ok settings =>
      exact of_settings environment environment files _ _ _ _ out token packages rfl
        (opened size some_size) (opened size' some_size') rfl rfl

namespace Sample

set_option maxRecDepth 4000

/-- An environment that asks for chunks of three bytes. -/
def three (name : String) : Option String :=
  if name = Overrides.chunkSizeVariable then some "3" else none

theorem openTransport_three : openTransport three beside { archive := "backup" } =
    .ok { settings := { chunkSize := 3 } } := rfl

end Sample

/-- The stream and the record of the sample archive are restored alike in chunks of one byte and
of three, and of three for which the environment asks. -/
theorem restorePackages_ignores_chunk_size_of_sample :
    openTransport (fun _ => none) Sample.beside { archive := "backup", chunkSize := some 1 } =
        .ok { settings := { chunkSize := 1 } } ∧
      openTransport Sample.three Sample.beside { archive := "backup" } =
        .ok { settings := { chunkSize := 3 } } ∧
      restorePackages (fun _ => none) Sample.beside { archive := "backup", chunkSize := some 1 }
          "out" none ["p", "q"] =
        restorePackages (fun _ => none) Sample.beside
          { archive := "backup", chunkSize := some 3 } "out" none ["p", "q"] ∧
      restorePackages (fun _ => none) Sample.beside { archive := "backup", chunkSize := some 1 }
          "out" none ["p", "q"] =
        restorePackages Sample.three Sample.beside { archive := "backup" } "out" none
          ["p", "q"] := by
  have opened : openTransport (fun _ => none) Sample.beside
      { archive := "backup", chunkSize := some 1 } = .ok { settings := { chunkSize := 1 } } := rfl
  have one : 1 ≤ 1 := Nat.le_refl 1
  have three : 1 ≤ 3 := by decide
  obtain ⟨by_option, by_settings⟩ :=
    restorePackages_ignores_chunk_size one three (by decide) (by decide)
  exact ⟨opened, Sample.openTransport_three,
    by_option (fun _ => none) Sample.beside { archive := "backup" } "out" none ["p", "q"],
    by_settings _ _ _ _ _ _ _ "out" none ["p", "q"] rfl opened Sample.openTransport_three rfl
      rfl⟩

end Command
end BackupRestore
