/-
Module: BackupRestore.Proofs.Dumps
Purpose: Reading back from its file what a restore has moved into it.
Main exports: RecordReader.readAll_of_tells, Command.dumpRecords_of_frames,
  Command.dumpRecords_of_restored
-/
import BackupRestore.Command.Dump
import BackupRestore.Proofs.Outcomes

namespace BackupRestore

/-!
The file of a package with records holds their frames and nothing else.  A reader goes through it
frame by frame, and as long as it accepts the lengths that the headers state, it comes to the end
with the records that were moved.  So a dump of the file shows what the archive has for the
package: each line can be told from the entry that spells the record.
-/

/-- A header can state the lengths that a reader accepts. -/
theorem Record.fits_of_isAccepted {r : Record} (accepted : r.isAccepted = true) : r.Fits := by
  unfold isAccepted maxKeyLength maxValueLength at accepted
  rw [Bool.and_eq_true, decide_eq_true_eq, decide_eq_true_eq] at accepted
  constructor
  · exact Nat.lt_of_le_of_lt accepted.1 (by decide)
  · exact Nat.lt_of_le_of_lt accepted.2 (by decide)

namespace RecordReader

/-- There is nothing but records to hear of records that are all accepted. -/
theorem script_of_accepted {records : List Record}
    (accepted : ∀ r ∈ records, r.isAccepted = true) : script records = records.map .ok := by
  induction records with
  | nil => rfl
  | cons r records ih =>
      rw [script_cons, if_pos (accepted r List.mem_cons_self),
        ih fun other member => accepted other (List.mem_cons_of_mem r member)]
      rfl

/-- A reader that tells of records, and then of nothing, gives them all without a failure. -/
theorem readAll_of_tells {r : RecordReader} {records : List Record}
    (tells : r.Tells (records.map .ok)) : r.readAll = (records, none) := by
  induction records generalizing r with
  | nil =>
      have next : r.next.1 = none := List.head_eq_of_cons_eq (tells 1)
      rw [readAll]
      split
      · rfl
      · rename_i told
        rw [told] at next
        cases next
      · rename_i told
        rw [told] at next
        cases next
  | cons record records ih =>
      have next : r.next.1 = some (.ok record) := List.head_eq_of_cons_eq (tells 1)
      have later : r.next.2.Tells (records.map .ok) := by
        intro n
        have all := tells (n + 1)
        rw [List.map_cons, map_range_getElem?_cons] at all
        exact List.tail_eq_of_cons_eq all
      rw [readAll]
      split
      · rename_i told
        rw [told] at next
        cases next
      · rename_i told
        rw [told] at next
        cases next
      · rename_i record' behind told
        rw [told] at next later
        cases next
        rw [ih later]

/-- The frames of records that are accepted are read back as these records. -/
theorem readAll_of_frames {records : List Record}
    (accepted : ∀ r ∈ records, r.isAccepted = true) :
    (ofContent (records.flatMap Record.frame).toArray {}).readAll = (records, none) := by
  apply readAll_of_tells
  rw [← script_of_accepted accepted]
  apply answers_of_frames (fun r member => Record.fits_of_isAccepted (accepted r member)) rfl
  · exact ⟨rfl, by simp [ofContent]⟩
  · rfl

end RecordReader

namespace Command

/-- A dump of a file that holds the frames of records shows these records. -/
theorem dumpRecords_of_frames {files : FileTree} {path : String} {records : List Record}
    (read : files.readFile (.ofText path) = .ok (records.flatMap Record.frame).toArray)
    (accepted : ∀ r ∈ records, r.isAccepted = true) :
    dumpRecords files path =
      { code := 0
        output := records.map recordLine
        messages := [toString records.length ++ " record(s)"] } := by
  obtain ⟨place, found⟩ := FileTree.readFile_eq_ok_iff.1 read
  have opened : openRecords files path =
      .ok (.ofContent (records.flatMap Record.frame).toArray {}) := by
    simp only [openRecords, found]
  simp only [dumpRecords, opened, RecordReader.readAll_of_frames accepted]

/-- A restore that has results has opened the archive, and made a directory for files. -/
theorem opened_of_restored [Zip.Codecs] {environment : String → Option String} {files : FileTree}
    {s : SourceOptions} {out : String} {token : Option Nat} {packages : List String}
    {r : PackageResult}
    (served : r ∈ restoredPackages environment files s out token packages) :
    ∃ t files', openTransport environment files s = .ok t ∧
      files.makeDirectories (.ofText out) = (.ok (), files') := by
  unfold restoredPackages at served
  split at served
  · cases served
  · rename_i t opened
    split at served
    · cases served
    · rename_i done files' made
      exact ⟨t, files', opened, made⟩

/-- If no package's file is the archive, a line that counts records tells of the package's file. -/
theorem tellsOf_of_records [Zip.Codecs] {environment : String → Option String}
    {files files' : FileTree} {s : SourceOptions} {t : Transport} {out : String}
    (opened : openTransport environment files s = .ok t)
    (made : files.makeDirectories (.ofText out) = (.ok (), files')) {token : Option Nat}
    {packages : List String}
    (apart : ∀ package ∈ packages, ¬ Endangers t.settings.layout files' s.archive out package)
    {r : PackageResult} {n : Nat}
    (served : r ∈ restoredPackages environment files s out token packages)
    (moved : r.outcome = .records n) :
    ∃ c, files.readFile (.ofText s.archive) = .ok c ∧
      r.TellsOf c t.settings.layout
        (restorePackages environment files s out token packages).2 out := by
  obtain ⟨site, rfl, read, spared⟩ := Job.exists_site opened made
  obtain ⟨-, -, kept, -, settled⟩ :=
    Job.Site.serveAll_of_kept Job.Site.kept_files (spared packages apart)
  obtain ⟨restored, results⟩ := restorePackages_eq opened made token packages
  rw [results] at served
  rw [restored, Job.files_report]
  obtain ⟨-, some_data, -⟩ := Job.package_of_serveAll r served
  refine ⟨site.content, read, ?_⟩
  cases settled r served with
  | misnamed bad_name outcome =>
      rw [moved] at outcome
      cases outcome
  | unmade named unmakeable outcome =>
      rw [moved] at outcome
      cases outcome
  | moved named led outcome stands =>
      exact Job.tellsOf_of_moved (j := Job.of t s.archive out) some_data
        (kept.directories.leads_iff.2 led) outcome stands

/-- A dump of the file of a package that was restored as records comes to its end, if the reader
accepts the lengths of these records.  It counts as many records as the restore did, and shows one
for each of the archive's entries for the package, in their order: the key that the entry's name
spells, and the length of the entry's data. -/
theorem dumpRecords_of_restored [Zip.Codecs] (environment : String → Option String)
    (files : FileTree) (s : SourceOptions) (out : String) (token : Option Nat)
    (packages : List String)
    (apart : ∀ t, openTransport environment files s = .ok t → ∀ package ∈ packages,
      ¬ Endangers t.settings.layout (files.makeDirectories (.ofText out)).2 s.archive out package)
    {r : PackageResult} {n : Nat}
    (served : r ∈ restoredPackages environment files s out token packages)
    (moved : r.outcome = .records n) :
    ∃ t c directory, openTransport environment files s = .ok t ∧
      files.readFile (.ofText s.archive) = .ok c ∧ Zip.Directory.read c = .ok directory ∧
      let entries := directory.entries.toList.filter
        (Pattern.under (t.settings.layout.recordsOf r.package)).selects
      entries.length = n ∧
      ((∀ e ∈ entries, ∀ key value, KeyName.decode (Layout.lastSegment e.name) = .ok key →
          e.payload c (some Medium.fileReach) = .ok value →
          key.length ≤ Record.maxKeyLength ∧ value.length ≤ Record.maxValueLength) →
        let shown := dumpRecords (restorePackages environment files s out token packages).2
          (outputPath out r.package .keyValue)
        shown.code = 0 ∧ shown.messages = [toString n ++ " record(s)"] ∧
          shown.output.length = n ∧
          ∀ (i : Nat) (e : Zip.Entry), entries[i]? = some e → ∃ key value,
            KeyName.decode (Layout.lastSegment e.name) = .ok key ∧
            e.payload c (some Medium.fileReach) = .ok value ∧
            shown.output[i]? =
              some (Text.decodeUtf8Lossy key ++ "\t" ++ toString value.length)) := by
  obtain ⟨t, files', opened, made⟩ := opened_of_restored served
  have apart := apart t opened
  rw [made] at apart
  obtain ⟨c, read, tells⟩ := tellsOf_of_records opened made apart served moved
  unfold PackageResult.TellsOf at tells
  rw [moved] at tells
  obtain ⟨mode, directory, records, listed, rfl, spelled, count, filed⟩ := tells
  rw [mode] at filed
  refine ⟨t, c, directory, opened, read, listed, ?_⟩
  intro entries
  have count_entries : entries.length = n := by
    rw [← count, Transfer.recordsIn, List.length_map]
  refine ⟨count_entries, ?_⟩
  intro within shown
  have accepted : ∀ record ∈ Transfer.recordsIn c (some Medium.fileReach)
      (.under (t.settings.layout.recordsOf r.package)) directory.entries.toList,
      record.isAccepted = true := by
    intro record member
    obtain ⟨e, chosen, rfl⟩ := List.mem_map.1 member
    obtain ⟨present, selected⟩ := List.mem_filter.1 chosen
    have spells := spelled e present selected
    obtain ⟨key_within, value_within⟩ := within e chosen _ _ spells.key spells.value.stands
    rw [Record.isAccepted, decide_eq_true key_within, decide_eq_true value_within]
    rfl
  have dumped : shown = _ := dumpRecords_of_frames filed accepted
  rw [dumped, count]
  refine ⟨rfl, rfl, ?_, ?_⟩
  · rw [List.length_map, count]
  · intro i e here
    obtain ⟨present, selected⟩ := List.mem_filter.1 (List.mem_of_getElem? here)
    have spells := spelled e present selected
    refine ⟨_, _, spells.key, spells.value.stands, ?_⟩
    rw [Transfer.recordsIn, List.getElem?_map, List.getElem?_map, here]
    rfl

namespace Sample

open BackupRestore.Sample

set_option maxRecDepth 4000

theorem payload_record_file : record.payload content (some Medium.fileReach) = .ok [118] := by
  simp only [Zip.Entry.payload, dataStart_file.2]
  rfl

end Sample

/-- The record of the sample archive is shown by a dump of the file that a restore leaves. -/
theorem dumpRecords_of_restored_of_sample :
    { package := "q", mode := .keyValue, outcome := .records 1 } ∈
        restoredPackages (fun _ => none) Sample.beside { archive := "backup" } "out" none
          ["p", "q"] ∧
      (∀ package ∈ ["p", "q"], ¬ Endangers ({} : Settings).layout
        (Sample.beside.makeDirectories (.ofText "out")).2 "backup" "out" package) ∧
      let shown := dumpRecords (restorePackages (fun _ => none) Sample.beside
        { archive := "backup" } "out" none ["p", "q"]).2 "out/q.kv"
      shown.code = 0 ∧ shown.messages = ["1 record(s)"] ∧ shown.output.length = 1 ∧
        shown.output[0]? = some "k\t1" := by
  have served : { package := "q", mode := .keyValue, outcome := .records 1 } ∈
      restoredPackages (fun _ => none) Sample.beside { archive := "backup" } "out" none
        ["p", "q"] := by
    rw [Sample.restoredPackages_beside]
    simp
  have apart : ∀ package ∈ ["p", "q"], ¬ Endangers ({} : Settings).layout
      (Sample.beside.makeDirectories (.ofText "out")).2 "backup" "out" package :=
    fun package listed => Sample.spared_beside listed
  obtain ⟨t, c, directory, opened', read, listed, -, dumped⟩ :=
    dumpRecords_of_restored (fun _ => none) Sample.beside { archive := "backup" } "out" none
      ["p", "q"] (fun t opened' => by
        rw [Sample.openTransport_beside] at opened'
        cases opened'
        exact apart) served rfl
  rw [Sample.openTransport_beside] at opened'
  cases opened'
  have content : Sample.beside.readFile (.ofText "backup") = .ok BackupRestore.Sample.content := rfl
  rw [content] at read
  cases read
  rw [BackupRestore.Sample.read_content] at listed
  cases listed
  have entries : [BackupRestore.Sample.stream, BackupRestore.Sample.record].filter
      (Pattern.under (({} : Settings).layout.recordsOf "q")).selects =
        [BackupRestore.Sample.record] := by decide
  have key : KeyName.decode (Layout.lastSegment BackupRestore.Sample.record.name) =
      .ok [107] := by decide
  have value := Sample.payload_record_file
  have within : ∀ e ∈ [BackupRestore.Sample.stream, BackupRestore.Sample.record].filter
      (Pattern.under (({} : Settings).layout.recordsOf "q")).selects, ∀ key value,
      KeyName.decode (Layout.lastSegment e.name) = .ok key →
      e.payload BackupRestore.Sample.content (some Medium.fileReach) = .ok value →
      key.length ≤ Record.maxKeyLength ∧ value.length ≤ Record.maxValueLength := by
    intro e member key' value' spelled stands
    rw [entries, List.mem_singleton] at member
    rw [member, key] at spelled
    rw [member, value] at stands
    cases spelled
    cases stands
    decide
  obtain ⟨code, messages, count, lines⟩ := dumped within
  have first : ([BackupRestore.Sample.stream, BackupRestore.Sample.record].filter
      (Pattern.under (({} : Settings).layout.recordsOf "q")).selects)[0]? =
        some BackupRestore.Sample.record := by
    rw [entries]
    rfl
  obtain ⟨key', value', spelled, stands, line⟩ := lines 0 _ first
  rw [key] at spelled
  rw [value] at stands
  cases spelled
  cases stands
  refine ⟨served, apart, code, messages, count, line.trans ?_⟩
  decide +kernel

end Command
end BackupRestore
