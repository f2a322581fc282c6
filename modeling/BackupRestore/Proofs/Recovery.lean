/-
Module: BackupRestore.Proofs.Recovery
Purpose: A record that is stored under the name of its key is found and handed over again.
Main exports: Zip.Entry.isDirectory_iff_of_named, Zip.Entry.selects_iff_of_named,
  Transfer.stored_record_is_handed_over, Transfer.record_of_empty_key_is_lost
-/
import BackupRestore.Proofs.KeyNames
import BackupRestore.Proofs.Records

namespace BackupRestore

/-!
Whoever stores a record gives its entry the path that is made of the package and the name of the
key.  A lookup for the package's records finds such an entry, and its name gives the key back; so
the record is among those that a transfer hands over.  One key is left out: the name of the empty
key is empty, and with the separator that ends its path the entry counts as a directory, which no
lookup ends at.
-/

variable {layout : Layout} {package : String} {c : Content} {reach : Option Nat}

/-! ### Entries named after a key -/

namespace Zip.Entry

variable {e : Entry} {key : List UInt8}

theorem isDirectory_iff_of_named
    (named : e.name = layout.recordPath package (KeyName.encode key)) :
    e.isDirectory = true ↔ key = [] := by
  constructor
  · intro directory
    cases key with
    | nil => rfl
    | cons byte rest =>
        obtain ⟨last, member, ends⟩ :=
          layout.getLast?_recordPath package (List.cons_ne_nil byte rest)
        have plain := KeyName.no_separator member
        rw [isDirectory, named, ends] at directory
        simp [plain] at directory
  · rintro rfl
    rw [isDirectory, named, layout.getLast?_recordPath_nil package]
    rfl

/-- No lookup ends at a directory. -/
theorem selects_of_directory (directory : e.isDirectory = true) (p : Pattern) :
    p.selects e = false := by
  rw [Pattern.selects, directory]
  rfl

/-- A lookup for a package's records ends at the entries that are named after a key, unless the
key is empty. -/
theorem selects_iff_of_named
    (named : e.name = layout.recordPath package (KeyName.encode key)) :
    (Pattern.under (layout.recordsOf package)).selects e = true ↔ key ≠ [] := by
  have begins : (layout.recordsOf package).toList <+: e.name.toList := by
    rw [named, Layout.toList_recordPath]
    exact List.prefix_append _ _
  rw [Pattern.selects_under_iff, and_iff_left begins, ← Bool.not_eq_true,
    isDirectory_iff_of_named named]

theorem spells_of_named [Zip.Codecs] {r : Record}
    (named : e.name = layout.recordPath package (KeyName.encode r.key))
    (gives : e.Gives c reach r.value) : e.Spells c reach r where
  key := by rw [named, Layout.lastSegment_recordPath, KeyName.decode_encode]
  value := gives

end Zip.Entry

namespace Transfer

/-- A record that is stored under the name of its key is found, and a transfer hands it over among
the others, however many they are, unless the sink refuses a call.  Only the record of the empty
key is never found. -/
theorem stored_record_is_handed_over [Zip.Codecs] {σ : Type} [RecordSink σ] {m : Medium}
    (faultless : m.Faultless c) {directory : Zip.Directory}
    (read : Zip.Directory.read c = .ok directory) (layout : Layout) (package : String) (r : Record)
    {e : Zip.Entry} (listed : e ∈ directory.entries.toList)
    (named : e.name = layout.recordPath package (KeyName.encode r.key))
    (gives : e.Gives c m.reach r.value)
    (others : ∀ e' ∈ directory.entries.toList, e' ≠ e →
      (∃ start, e'.dataStart c m.reach = .ok start) ∧
        ((Pattern.under (layout.recordsOf package)).selects e' = true →
          ∃ r', e'.Spells c m.reach r'))
    (sink : σ) :
    let records := recordsIn c m.reach (.under (layout.recordsOf package)) directory.entries.toList
    (r.key ≠ [] → (classify layout package m).1 = .ok .keyValue ∧ r ∈ records ∧
      ∃ m', transferRecords layout package m sink =
        match deliverAll sink (records.flatMap Record.calls) with
        | (.error cause, sink) => (.error (.io cause), m', sink)
        | (.ok _, sink) => (.ok records.length, m', sink)) ∧
    (r.key = [] → ∀ p : Pattern, p.selects e = false) := by
  intro records
  have spells := Zip.Entry.spells_of_named named gives
  obtain ⟨start, begins, -⟩ := Zip.Entry.payload_eq_ok gives.stands
  have visitable : ∀ e' ∈ directory.entries.toList,
      ∃ start, e'.dataStart c m.reach = .ok start := by
    intro e' member
    by_cases same : e' = e
    · exact ⟨start, same ▸ begins⟩
    · exact (others e' member same).1
  have readable : ∀ e' ∈ directory.entries.toList,
      (Pattern.under (layout.recordsOf package)).selects e' = true →
        ∃ r', e'.Spells c m.reach r' := by
    intro e' member selected
    by_cases same : e' = e
    · exact ⟨r, same ▸ spells⟩
    · exact (others e' member same).2 selected
  constructor
  · intro some_bytes
    have selected := (Zip.Entry.selects_iff_of_named named).2 some_bytes
    refine ⟨?_, ?_, transferRecords_of_readable faultless read visitable readable rfl sink⟩
    · obtain ⟨a, found, located⟩ := locateIn_of_selected read visitable listed selected
      obtain ⟨m', -, -, looked⟩ := classify_of_faultless faultless layout package
      rw [looked, classifyIn, located]
    · exact List.mem_map.2 ⟨e, List.mem_filter.2 ⟨listed, selected⟩, spells.record⟩
  · intro empty
    exact Zip.Entry.selects_of_directory ((Zip.Entry.isDirectory_iff_of_named named).2 empty)

/-- The record of the sample archive is handed over to a log. -/
theorem stored_record_is_handed_over_of_sample :
    (Medium.ofContent Sample.content).Faultless Sample.content ∧
      Zip.Directory.read Sample.content = .ok { entries := #[Sample.stream, Sample.record] } ∧
      Sample.record.name = Sample.layout.recordPath "q" (KeyName.encode [107]) ∧
      Sample.record.Gives Sample.content none [118] ∧
      (classify Sample.layout "q" (.ofContent Sample.content)).1 = .ok .keyValue ∧
      ∃ m', transferRecords Sample.layout "q" (.ofContent Sample.content) SinkLog.willing =
        (.ok 1, m', { SinkLog.willing with
          headers := 1, values := 1, latestFirst := [.data [118], .header [107] 1] }) := by
  have faultless := Medium.faultless_ofContent Sample.content
  have named : Sample.record.name = Sample.layout.recordPath "q" (KeyName.encode [107]) :=
    rfl
  have gives : Sample.record.Gives Sample.content none [118] :=
    ⟨rfl, rfl, rfl, Sample.payload_record, by decide⟩
  obtain ⟨found, -, m', moved⟩ := (stored_record_is_handed_over faultless Sample.read_content
    Sample.layout "q" { key := [107], value := [118] } (by simp) named gives (by
      intro e member other
      have stream : e = Sample.stream := by simpa [other] using member
      subst stream
      refine ⟨⟨36, Sample.dataStart_entries.1⟩, ?_⟩
      intro selected
      exact absurd selected (by decide)) SinkLog.willing).1 (List.cons_ne_nil _ _)
  have held : recordsIn Sample.content none (.under (Sample.layout.recordsOf "q"))
      [Sample.stream, Sample.record] = [{ key := [107], value := [118] }] := by
    have fit : (Pattern.under (Sample.layout.recordsOf "q")).selects Sample.stream = false ∧
        (Pattern.under (Sample.layout.recordsOf "q")).selects Sample.record = true := by decide
    have spells : Sample.record.Spells Sample.content none { key := [107], value := [118] } :=
      Zip.Entry.spells_of_named named gives
    simp [recordsIn, fit, spells.record]
  refine ⟨faultless, Sample.read_content, named, gives, found, m', ?_⟩
  have reach : (Medium.ofContent Sample.content).reach = none := rfl
  rw [moved, reach, held]
  rfl

end Transfer

/-! ### An archive with the record of the empty key

It stores the value `v` for the package `p`, under the empty key. -/

namespace Unnamed

set_option maxRecDepth 4000

/-- The bytes of the archive. -/
def content : Content := #[
    80, 75, 3, 4, 20, 0, 0, 0, 0, 0, 0, 0, 0, 0, 132, 59, 100, 107, 1, 0, 0, 0, 1, 0,
    0, 0, 14, 0, 0, 0, 105, 110, 99, 114, 101, 109, 101, 110, 116, 97, 108, 47, 112, 47, 118, 80,
    75, 1, 2, 20, 0, 20, 0, 0, 0, 0, 0, 0, 0, 0, 0, 132, 59, 100, 107, 1, 0, 0, 0, 1,
    0, 0, 0, 14, 0, 0, 0, 0, 0, 0, 0, 0, 0, 0, 0, 0, 0, 0, 0, 0, 0, 105, 110, 99,
    114, 101, 109, 101, 110, 116, 97, 108, 47, 112, 47, 80, 75, 5, 6, 0, 0, 0, 0, 1, 0, 1, 0,
    60, 0, 0, 0, 45, 0, 0, 0, 0, 0]

/-- The entry with the record. -/
def record : Zip.Entry where
  name := "incremental/p/"
  isEncrypted := false
  method := .stored
  checksum := 0x6B643B84
  compressedSize := 1
  uncompressedSize := 1
  headerStart := 0
  hasCipherNote := false

private theorem read_entry : Zip.Entry.read content 0 45 = .ok (record, 105) := by
  have parts : Zip.Entry.ofParts (content.slice 45 91) (content.slice 91 105) [] [] 0 =
      .ok record := by
    simp only [Zip.Entry.ofParts, Zip.applyFields_nil]
    rfl
  change (Zip.Entry.ofParts (content.slice 45 91) (content.slice 91 105) [] [] 0 >>=
    fun e => pure (e, 105)) = _
  rw [parts]
  rfl

private theorem ofEndRecord_last :
    Zip.Directory.ofEndRecord content 105 = some (.ok { entries := #[record] }) := by
  have place : Zip.placeAt content 105 =
      some (.ok { start := 45, archiveOffset := 0, entryCount := 1 }) := rfl
  exact Zip.Directory.ofEndRecord_of_chain place (.cons read_entry (.nil _)) rfl (by simp)

/-- The directory lists the entry. -/
theorem read_content : Zip.Directory.read content = .ok { entries := #[record] } := by
  have size : content.size = 105 + 1 + 21 := by decide
  have unsigned : ∀ k < 21, Zip.hasSignature content Zip.endSignature (105 + 1 + k) = false := by
    decide
  exact Zip.Directory.read_of_end size unsigned (by decide) ofEndRecord_last

theorem gives_record : record.Gives content none [118] := by
  have begins : record.dataStart content none = .ok 44 := rfl
  refine ⟨rfl, rfl, rfl, ?_, by decide⟩
  simp only [Zip.Entry.payload, begins]
  rfl

/-- The entry can be visited, but no lookup ends at it. -/
theorem locateIn_content (p : Pattern) : locateIn content none p = .ok none := by
  refine locateIn_eq_none_iff.2 ⟨_, read_content, ?_⟩
  intro e member
  have same : e = record := by simpa using member
  subst same
  exact ⟨⟨44, rfl⟩, Zip.Entry.selects_of_directory (by decide) p⟩

end Unnamed

/-- A record that is stored under the empty key is lost: no data is found for its package, and a
transfer hands nothing over. -/
theorem Transfer.record_of_empty_key_is_lost :
    Zip.Directory.read Unnamed.content = .ok { entries := #[Unnamed.record] } ∧
      Unnamed.record.name = Sample.layout.recordPath "p" (KeyName.encode []) ∧
      Unnamed.record.Gives Unnamed.content none [118] ∧
      (classify Sample.layout "p" (.ofContent Unnamed.content)).1 = .ok .none ∧
      ∃ m', transferRecords Sample.layout "p" (.ofContent Unnamed.content) SinkLog.willing =
        (.ok 0, m', SinkLog.willing) := by
  have faultless := Medium.faultless_ofContent Unnamed.content
  have reach : (Medium.ofContent Unnamed.content).reach = none := rfl
  obtain ⟨m', -, -, looked⟩ := classify_of_faultless faultless Sample.layout "p"
  refine ⟨Unnamed.read_content, rfl, Unnamed.gives_record, ?_, ?_⟩
  · rw [looked, reach, classifyIn, Unnamed.locateIn_content, Unnamed.locateIn_content]
  · exact transferRecords_of_none faultless (Unnamed.locateIn_content _) SinkLog.willing

end BackupRestore
