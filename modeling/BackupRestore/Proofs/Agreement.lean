/-
Module: BackupRestore.Proofs.Agreement
Purpose: A look at a package tells how its records and its stream will be found.
Main exports: FullStream.FirstAnswer, FullStream.nextChunk_of_located, FullStream.nextChunk_of_none,
  calls_follow_classify
-/
import BackupRestore.Proofs.Phases
import BackupRestore.Proofs.Records

namespace BackupRestore

/-!
Three calls look a package up: the one that finds out how it is stored, the transfer of its
records, and the first call for a chunk of its stream.  On a medium that gives no trouble each
sees what the bytes of the archive say (`locateIn`), so none contradicts another.  A stream that
has been found can still be refused, but only for what the directory says of its entry.
-/

variable {layout : Layout} {package : String} {m : Medium} {c : Content}

namespace FullStream

/-- What the first call for a chunk answers when the stream has been found in the entry: a refusal
for what the directory says of the entry, and no refusal otherwise. -/
structure FirstAnswer (package path : String) (e : Zip.Entry)
    (answer : Except RestoreError ChunkResult) : Prop where
  encrypted : e.isEncrypted = true → answer = .error (.encryptedEntry path)
  unsupported : e.isEncrypted = false → e.method.isSupported = false →
    answer = .error (.unsupportedCompression path e.method.name)
  streamed : e.isEncrypted = false → e.method.isSupported = true →
    (∃ n, answer = .ok (.data n)) ∨ answer = .ok .noMoreData ∨
      ∃ source, answer = .error (.transfer package source)

variable {s s' : FullStream} {m₁ m' : Medium} {o o' : Output} {cursor : Cursor}

/-- A stream that can be read from is not refused. -/
theorem Course.answer_of_starts {answer : Except RestoreError ChunkResult}
    (course : s.Course layout m o answer s' m' o') (starts : s.Starts layout m cursor m₁) :
    (∃ n, answer = .ok (.data n)) ∨ answer = .ok .noMoreData ∨
      ∃ source, answer = .error (.transfer s.package source) := by
  cases course with
  | closed phase => exact absurd starts (not_starts_of_closed phase)
  | refused phase failed => exact absurd starts (not_starts_of_refused phase failed)
  | unread => exact Or.inr (Or.inr ⟨_, rfl⟩)
  | unflushed => exact Or.inr (Or.inr ⟨_, rfl⟩)
  | ended => exact Or.inr (Or.inl rfl)
  | unwritten => exact Or.inr (Or.inr ⟨_, rfl⟩)
  | moved => exact Or.inl ⟨_, rfl⟩

/-- The first call reports a refusal as it is. -/
theorem nextChunk_of_refused {e : RestoreError} (phase : s.phase = .notStarted)
    (failed : s.openCursor layout m = (.error e, m')) (refusal : e.isRejection = true)
    (o : Output) : (s.nextChunk layout m o).1 = .error e := by
  unfold nextChunk
  simp only [phase, failed, openingError, refusal, if_true]

theorem nextChunk_of_none (faultless : m.Faultless c) (phase : s.phase = .notStarted)
    (nothing : locateIn c m.reach (.exactly (layout.streamPath s.package)) = .ok none)
    (o : Output) : (s.nextChunk layout m o).1 = .error (.packageRejected s.package) := by
  obtain ⟨m₁, -, -, -, located⟩ :=
    locate_of_faultless faultless (.exactly (layout.streamPath s.package))
  rw [nothing] at located
  have failed : s.openCursor layout m = (.error s.rejection, m₁) := by
    simp only [openCursor, located]
  exact nextChunk_of_refused phase failed rfl o

theorem nextChunk_of_located (faultless : m.Faultless c) (phase : s.phase = .notStarted)
    {a : Archive} {found : Located}
    (located : locateIn c m.reach (.exactly (layout.streamPath s.package)) =
      .ok (some (a, found))) (o : Output) :
    ∃ directory e, Zip.Directory.read c = .ok directory ∧
      directory.entries.toList.find?
        (Pattern.exactly (layout.streamPath s.package)).selects = some e ∧
      FirstAnswer s.package (layout.streamPath s.package) e (s.nextChunk layout m o).1 := by
  obtain ⟨handle, read, e, start, first, here, name, begins⟩ := locateIn_eq_some located
  refine ⟨a.directory, e, read, first, ?_⟩
  have path : found.name = layout.streamPath s.package :=
    name.trans (Pattern.selects_exactly_iff.1 (List.find?_some first)).2
  obtain ⟨m₁, faultless₁, reach, -, looked⟩ :=
    locate_of_faultless faultless (.exactly (layout.streamPath s.package))
  rw [located] at looked
  have begins : e.dataStart a.handle.content m₁.reach = .ok start := by
    rw [handle, reach]
    exact begins
  obtain ⟨d, -, opened⟩ := Archive.intoCursor_of_begins faultless₁.sound here begins
  have opening : s.openCursor layout m = a.intoCursor m₁ found := by
    simp only [openCursor, looked]
  rw [← opening, path] at opened
  constructor
  · intro encrypted
    rw [encrypted] at opened
    exact nextChunk_of_refused phase opened rfl o
  · intro plain unsupported
    rw [plain, unsupported] at opened
    exact nextChunk_of_refused phase opened rfl o
  · intro plain supported
    rw [plain, supported] at opened
    have starts : s.Starts layout m _ _ := .opened phase opened
    exact (course_nextChunk rfl).answer_of_starts starts

end FullStream

/-- What a look at a package says, the later calls bear out, whenever they are made.  Where it has
found records, a transfer hands over one or more or fails; where it has found a full stream, a
transfer finds no records, and the first call for a chunk is refused only for what the directory
says of the stream's entry; where it has found neither, a transfer finds no records and the first
call for a chunk is refused. -/
theorem calls_follow_classify [Zip.Codecs] {σ : Type} [RecordSink σ] (faultless : m.Faultless c)
    {mode : RestoreMode} {m₀ m₁ : Medium} (looked : classify layout package m = (.ok mode, m₀))
    (unchanged : m₁.Faultless c) (reach : m₁.reach = m.reach) (sink : σ) (chunkSize : Nat)
    (o : Output) :
    let answer := (({ package, chunkSize } : FullStream).nextChunk layout m₁ o).1
    match mode with
    | .keyValue => ∀ n m' sink', transferRecords layout package m₁ sink = (.ok n, m', sink') →
        0 < n ∧ ∃ records : List Record, records.length = n ∧
          Transfer.deliverAll sink (records.flatMap Record.calls) = (.ok (), sink')
    | .fullStream => (∃ m', transferRecords layout package m₁ sink = (.ok 0, m', sink)) ∧
        ∃ directory e, Zip.Directory.read c = .ok directory ∧
          directory.entries.toList.find? (Pattern.exactly (layout.streamPath package)).selects =
            some e ∧
          FullStream.FirstAnswer package (layout.streamPath package) e answer
    | .none => (∃ m', transferRecords layout package m₁ sink = (.ok 0, m', sink)) ∧
        answer = .error (.packageRejected package) := by
  obtain ⟨m', -, -, seen⟩ := classify_of_faultless faultless layout package
  rw [looked] at seen
  have classified : classifyIn c m₁.reach layout package = .ok mode := by
    rw [reach]
    exact (congrArg Prod.fst seen).symm
  rcases classifyIn_cases classified with
    ⟨rfl, a, found, records⟩ | ⟨no_records, ⟨rfl, a, found, stream⟩ | ⟨rfl, no_stream⟩⟩
  · intro answer n m' sink' moved
    obtain ⟨c', directory, records, content, read, rfl, rfl, delivered⟩ :=
      Transfer.transferRecords_eq_ok moved
    rw [unchanged.content] at content
    cases content
    refine ⟨?_, _, rfl, delivered⟩
    obtain ⟨-, read', e, start, first, -⟩ := locateIn_eq_some records
    rw [read] at read'
    cases read'
    rw [Transfer.recordsIn, List.length_map, List.length_pos_iff_exists_mem]
    exact ⟨e, List.mem_filter.2 ⟨List.mem_of_find?_eq_some first, List.find?_some first⟩⟩
  · exact ⟨Transfer.transferRecords_of_none unchanged no_records sink,
      FullStream.nextChunk_of_located (s := { package, chunkSize }) unchanged rfl stream o⟩
  · exact ⟨Transfer.transferRecords_of_none unchanged no_records sink,
      FullStream.nextChunk_of_none (s := { package, chunkSize }) unchanged rfl no_stream o⟩

/-- In the sample archive one package has a stream, which is not refused, and the other one has
records, of which a transfer that ends well hands over some. -/
theorem calls_follow_classify_of_sample :
    (Medium.ofContent Sample.content).Faultless Sample.content ∧
      (classify Sample.layout "p" (.ofContent Sample.content)).1 = .ok .fullStream ∧
      (classify Sample.layout "q" (.ofContent Sample.content)).1 = .ok .keyValue ∧
      (∃ directory e, Zip.Directory.read Sample.content = .ok directory ∧
        directory.entries.toList.find?
          (Pattern.exactly (Sample.layout.streamPath "p")).selects = some e ∧
        FullStream.FirstAnswer "p" (Sample.layout.streamPath "p") e
          (({ package := "p", chunkSize := 2 } : FullStream).nextChunk Sample.layout
            (.ofContent Sample.content) .willing).1) ∧
      ∀ n m' log, transferRecords Sample.layout "q" (.ofContent Sample.content)
        SinkLog.willing = (.ok n, m', log) → 0 < n := by
  have faultless := Medium.faultless_ofContent Sample.content
  obtain ⟨m₀, -, -, stream⟩ := classify_of_faultless faultless Sample.layout "p"
  obtain ⟨m₁, -, -, records⟩ := classify_of_faultless faultless Sample.layout "q"
  have reach : (Medium.ofContent Sample.content).reach = none := rfl
  rw [reach, Sample.classifyIn_content.1] at stream
  rw [reach, Sample.classifyIn_content.2] at records
  refine ⟨faultless, by rw [stream], by rw [records], ?_, ?_⟩
  · exact (calls_follow_classify faultless stream faultless rfl SinkLog.willing 2 .willing).2
  · intro n m' log moved
    exact (calls_follow_classify faultless records faultless rfl SinkLog.willing 2 .willing
      n m' log moved).1

end BackupRestore
