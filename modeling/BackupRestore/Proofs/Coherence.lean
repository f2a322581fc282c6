/-
Module: BackupRestore.Proofs.Coherence
Purpose: How a session's place, mode and stream go together, and which calls it refuses.
Main exports: Session.Coherent, Session.coherent_perform, FullStream.staged, Session.Guarded,
  Session.Coherent.guarded, Session.Coherent.ruled, Session.run_stays_coherent,
  Session.mode_of_large_chunks
-/
import BackupRestore.Proofs.Packages
import BackupRestore.Proofs.Phases

namespace BackupRestore

/-!
A session keeps its place, its mode and its stream apart, and a call for the next package changes
them one after the other: it gives up the stream, moves the place from package to package, and
sets the mode where it stops.  Between calls the three go together (`Session.Coherent`): there is
a mode where there is a package, and a stream where the mode is that of one.  So the mode alone
tells which calls are in sequence.

There is one gap.  A stream whose chunks are larger than any buffer cannot be prepared, and the
call that finds this out has set the mode by then.
-/

/-! ### Streams -/

namespace FullStream

/-- Move one chunk from the cursor that the stream holds.  It must hold one. -/
def stepHeld (s : FullStream) (m : Medium) (o : Output) :
    Option (Except RestoreError ChunkResult × FullStream × Medium × Output) :=
  match s.phase with
  | .streaming cursor => some (s.step m cursor o)
  | .notStarted | .closed _ => none

/-- A call for a chunk in two stages: what is not open is opened, and then one chunk is moved from
what is held. -/
def staged (s : FullStream) (layout : Layout) (m : Medium) (o : Output) :
    Option (Except RestoreError ChunkResult × FullStream × Medium × Output) :=
  match s.phase with
  | .streaming _ => s.stepHeld m o
  | .notStarted =>
      match s.openCursor layout m with
      | (.error e, m) => some (.error (s.openingError e), s.close .rejected, m, o)
      | (.ok cursor, m) => ({ s with phase := .streaming cursor } : FullStream).stepHeld m o
  | .closed reason => some (s.lastWord reason, s, m, o)

/-- The second stage always finds a cursor. -/
theorem staged_eq (s : FullStream) (layout : Layout) (m : Medium) (o : Output) :
    s.staged layout m o = some (s.nextChunk layout m o) := by
  unfold staged FullStream.nextChunk
  cases phase : s.phase with
  | streaming cursor => simp only [stepHeld, phase]
  | notStarted =>
      simp only
      cases found : s.openCursor layout m with
      | mk answer m₁ => cases answer <;> rfl
  | closed reason => cases reason <;> rfl

end FullStream

/-! ### Sessions -/

namespace Session

/-- Place, mode and stream go together. -/
structure Coherent (s : Session) : Prop where
  place : ∀ index, s.place = .at index → index < s.packages.length
  mode : s.mode = .none ↔ s.currentPackage? = none
  stream : s.stream.isSome = true ↔ s.mode = .fullStream ∧ s.chunkSize < FullStream.chunkLimit
  belongs : ∀ stream ∈ s.stream, s.currentPackage? = some stream.package ∧
    stream.chunkSize = s.chunkSize

theorem coherent_start (settings : Settings) (token : Nat) (packages : List String) :
    (start settings token packages).Coherent := by
  refine ⟨nofun, ⟨fun _ => rfl, fun _ => rfl⟩, ?_, nofun⟩
  constructor
  · intro held
    cases held
  · rintro ⟨mode, -⟩
    cases mode

/-- A package that is chosen gets a stream if it is to have one that can be prepared. -/
theorem choose_of_no_stream {s : Session} (none_left : s.stream = none) (index : Nat)
    (package : String) (mode : RestoreMode) :
    (s.choose index package mode).2 =
      { s with
        place := .at index
        mode
        stream :=
          if mode = .fullStream ∧ s.chunkSize < FullStream.chunkLimit then
            some { package, chunkSize := s.chunkSize }
          else none } := by
  unfold choose FullStream.prepare
  by_cases full : mode = .fullStream
  · by_cases small : s.chunkSize < FullStream.chunkLimit
    · simp [full, small]
    · simp [full, small, none_left]
  · simp [full, none_left]

theorem coherent_choose {s : Session} (none_left : s.stream = none) {index : Nat}
    {package : String} (here : s.packages[index]? = some package) {mode : RestoreMode}
    (some_mode : mode ≠ .none) : (s.choose index package mode).2.Coherent := by
  rw [choose_of_no_stream none_left]
  refine ⟨?_, ?_, ?_, ?_⟩
  · rintro _ ⟨⟩
    exact (List.getElem?_eq_some_iff.1 here).1
  · simp [currentPackage?, here, some_mode]
  · simp
  · intro stream held
    simp only [Option.mem_def, Option.ite_none_right_eq_some, Option.some.injEq] at held
    obtain ⟨-, rfl⟩ := held
    exact ⟨here, rfl⟩

/-- However far a search goes, it leaves the session coherent. -/
theorem coherent_seekPackage {s : Session} (none_left : s.stream = none) (m : Medium) (index : Nat)
    (remaining : List String) (behind : s.packages.drop index = remaining) :
    (s.seekPackage m index remaining).2.1.Coherent := by
  induction remaining generalizing s m index with
  | nil =>
      refine ⟨nofun, ⟨fun _ => rfl, fun _ => rfl⟩, ?_, ?_⟩
      · simp [seekPackage, none_left]
      · intro stream held
        simp only [seekPackage, none_left] at held
        cases held
  | cons package rest ih =>
      have here : s.packages[index]? = some package := by
        rw [← List.head?_drop, behind, List.head?_cons]
      have later : s.packages.drop (index + 1) = rest := by
        rw [← List.tail_drop, behind, List.tail_cons]
      unfold seekPackage
      split
      · exact ih (s := { s with place := .at index }) none_left _ (index + 1) later
      · exact ih (s := { s with place := .at index }) none_left _ (index + 1) later
      · rename_i mode m₁ some_mode probed
        exact coherent_choose none_left here some_mode

theorem coherent_nextPackage {s : Session} (coherent : s.Coherent) (m : Medium) :
    (s.nextPackage m).2.1.Coherent := by
  have dropped := s.session_dropStream m
  unfold nextPackage
  generalize s.dropStream m = result at dropped
  obtain ⟨s₁, m₁⟩ := result
  simp only at dropped
  subst dropped
  simp only
  split
  · rename_i exhausted
    have spent : s.place = .exhausted := by
      unfold nextIndex? at exhausted
      split at exhausted <;> first | assumption | cases exhausted
    have none_chosen : s.mode = .none := coherent.mode.2 (by rw [currentPackage?, spent])
    refine ⟨coherent.place, coherent.mode, ?_, nofun⟩
    simp [none_chosen]
  · exact coherent_seekPackage rfl m₁ _ _ rfl

/-- A stream for the same package, with chunks of the same size, can stand in for another. -/
theorem Coherent.withStream {s : Session} (coherent : s.Coherent) {stream stream' : FullStream}
    (held : s.stream = some stream) (package : stream'.package = stream.package)
    (chunkSize : stream'.chunkSize = stream.chunkSize) :
    ({ s with stream := some stream' } : Session).Coherent := by
  obtain ⟨current, size⟩ := coherent.belongs stream held
  refine ⟨coherent.place, coherent.mode, ?_, ?_⟩
  · rw [← coherent.stream, held]
    exact Iff.rfl
  · rintro _ ⟨⟩
    exact ⟨package ▸ current, chunkSize.trans size⟩

theorem coherent_streamChunk {s : Session} (coherent : s.Coherent) (m : Medium) (o : Output) :
    (s.streamChunk m o).2.1.Coherent := by
  unfold streamChunk
  split
  · exact coherent
  · cases held : s.stream with
    | none => exact coherent
    | some stream =>
        generalize called : stream.nextChunk s.layout m o = result
        obtain ⟨answer, stream', m', o'⟩ := result
        obtain ⟨package, chunkSize⟩ := (FullStream.course_nextChunk called).keeps
        simp only [called]
        exact coherent.withStream held package chunkSize

theorem coherent_abort {s : Session} (coherent : s.Coherent) (m : Medium) :
    (s.abort m).1.Coherent := by
  unfold abort
  cases held : s.stream with
  | none => exact coherent
  | some stream =>
      have ended := stream.abort_eq m
      exact coherent.withStream held (by rw [ended]; rfl) (by rw [ended]; rfl)

section Runs

variable [Zip.Codecs]

/-- Whatever happens to a coherent session leaves it coherent. -/
theorem coherent_perform {s : Session} (coherent : s.Coherent) (m : Medium) (event : Event) :
    (s.perform m event).session.Coherent := by
  cases event with
  | nextPackage => exact coherent_nextPackage coherent m
  | streamChunk o => exact coherent_streamChunk coherent m o
  | transferKeyValue sink => exact coherent
  | abort => exact coherent_abort coherent m
  | classify package => exact coherent
  | plan trouble => exact coherent

/-! ### Calls out of sequence -/

/-- Which calls are refused, and that a call that is refused changes nothing. -/
structure Guarded (s : Session) : Prop where
  records : ∀ {σ : Type} [RecordSink σ] (m : Medium) (sink : σ), s.mode = .keyValue →
    ∃ answer m' sink', s.transferKeyValue m sink = (.ok answer, m', sink')
  records_refused : ∀ {σ : Type} [RecordSink σ] (m : Medium) (sink : σ), s.mode ≠ .keyValue →
    ∃ misuse, s.transferKeyValue m sink = (.error misuse, m, sink)
  chunks : ∀ m o, s.mode = .fullStream → s.chunkSize < FullStream.chunkLimit →
    ∃ answer s' m' o', s.streamChunk m o = (.ok answer, s', m', o')
  chunks_refused : ∀ m o, s.mode ≠ .fullStream →
    s.streamChunk m o = (.error .notFullStream, s, m, o)
  /-- There is no stream where it would need a buffer that cannot be. -/
  chunks_withheld : ∀ m o, s.mode = .fullStream → FullStream.chunkLimit ≤ s.chunkSize →
    s.streamChunk m o = (.error .noStream, s, m, o)
  /-- A stream never moves a chunk without a cursor. -/
  staged : ∀ stream ∈ s.stream, ∀ m o,
    stream.staged s.layout m o = some (stream.nextChunk s.layout m o)

theorem Coherent.guarded {s : Session} (coherent : s.Coherent) : s.Guarded := by
  refine ⟨?_, ?_, ?_, ?_, ?_, fun stream _ m o => stream.staged_eq s.layout m o⟩
  · intro σ _ m sink chosen
    unfold transferKeyValue
    cases current : s.currentPackage? with
    | none =>
        rw [coherent.mode.2 current] at chosen
        cases chosen
    | some package =>
        simp only [chosen, ne_eq, not_true_eq_false, if_false]
        split <;> exact ⟨_, _, _, rfl⟩
  · intro σ _ m sink other
    unfold transferKeyValue
    cases s.currentPackage? with
    | none => exact ⟨_, rfl⟩
    | some package =>
        simp only [ne_eq, other, not_false_eq_true, if_true]
        exact ⟨_, rfl⟩
  · intro m o chosen small
    obtain ⟨stream, held⟩ := Option.isSome_iff_exists.1 (coherent.stream.2 ⟨chosen, small⟩)
    unfold streamChunk
    simp only [chosen, held, ne_eq, not_true_eq_false, if_false]
    exact ⟨_, _, _, _, rfl⟩
  · intro m o other
    unfold streamChunk
    simp only [ne_eq, other, not_false_eq_true, if_true]
  · intro m o chosen large
    have none_held : s.stream = none := by
      cases held : s.stream with
      | none => rfl
      | some stream =>
          have small := (coherent.stream.1 (by rw [held]; rfl)).2
          exact absurd large (Nat.not_le.2 small)
    unfold streamChunk
    simp only [chosen, none_held, ne_eq, not_true_eq_false, if_false]

/-- The mode alone tells whether there is a stream and which calls are refused, and a call that is
refused changes nothing. -/
structure Ruled (s : Session) : Prop where
  stream : s.stream.isSome = true ↔ s.mode = .fullStream
  records : ∀ {σ : Type} [RecordSink σ] (m : Medium) (sink : σ),
    (∃ misuse m' sink', s.transferKeyValue m sink = (.error misuse, m', sink')) ↔
      s.mode ≠ .keyValue
  chunks : ∀ m o, (∃ misuse s' m' o', s.streamChunk m o = (.error misuse, s', m', o')) ↔
    s.mode ≠ .fullStream
  records_unchanged : ∀ {σ : Type} [RecordSink σ] (m : Medium) (sink : σ), s.mode ≠ .keyValue →
    ∃ misuse, s.transferKeyValue m sink = (.error misuse, m, sink)
  chunks_unchanged : ∀ m o, s.mode ≠ .fullStream →
    s.streamChunk m o = (.error .notFullStream, s, m, o)

/-- A coherent session whose chunks fit a buffer never lacks a stream. -/
theorem Coherent.ruled {s : Session} (coherent : s.Coherent)
    (small : s.chunkSize < FullStream.chunkLimit) : s.Ruled := by
  have guarded := coherent.guarded
  refine ⟨?_, ?_, ?_, guarded.records_refused, guarded.chunks_refused⟩
  · rw [coherent.stream]
    exact and_iff_left small
  · intro σ _ m sink
    constructor
    · rintro ⟨misuse, m', sink', refused⟩ chosen
      obtain ⟨answer, m₁, sink₁, moved⟩ := guarded.records m sink chosen
      rw [refused] at moved
      cases moved
    · intro other
      obtain ⟨misuse, refused⟩ := guarded.records_refused m sink other
      exact ⟨misuse, m, sink, refused⟩
  · intro m o
    constructor
    · rintro ⟨misuse, s', m', o', refused⟩ chosen
      obtain ⟨answer, s₁, m₁, o₁, moved⟩ := guarded.chunks m o chosen small
      rw [refused] at moved
      cases moved
    · intro other
      exact ⟨_, s, m, o, guarded.chunks_refused m o other⟩

/-- In every run of a session whose chunks fit a buffer, place, mode and stream go together at its
beginning and behind every event, for the list and the chunks that it was started with, and so
just the calls that are out of sequence are refused. -/
theorem run_stays_coherent {settings : Settings}
    (small : settings.chunkSize < FullStream.chunkLimit) (token : Nat) (packages : List String)
    (m : Medium) (events : List Event) :
    ∀ s ∈ start settings token packages ::
        ((start settings token packages).run m events).map Moment.session,
      s.Coherent ∧ s.Guarded ∧ s.Ruled ∧
      s.packages = packages ∧ s.chunkSize = settings.chunkSize := by
  have begins := coherent_start settings token packages
  have behind : ∀ moment ∈ (start settings token packages).run m events,
      moment.session.Coherent ∧
        ∃ seen, Reached (start settings token packages) moment.session seen := by
    refine forall_run
      (fun s _ => s.Coherent ∧ ∃ seen, Reached (start settings token packages) s seen)
      ⟨begins, [], reached_start settings token packages⟩ ?_
    rintro s m event - ⟨coherent, seen, reached⟩
    have kept := coherent_perform coherent m event
    have reached' := (reached_perform (m := m) reached event).1
    exact ⟨⟨kept, _, reached'⟩, kept, _, reached'⟩
  intro s member
  rcases List.mem_cons.1 member with rfl | later
  · exact ⟨begins, begins.guarded, begins.ruled small, rfl, rfl⟩
  · obtain ⟨moment, happened, rfl⟩ := List.mem_map.1 later
    obtain ⟨coherent, seen, reached⟩ := behind moment happened
    have same : moment.session.chunkSize = settings.chunkSize := reached.chunkSize
    exact ⟨coherent, coherent.guarded, coherent.ruled (same ▸ small), reached.packages, same⟩

end Runs

/-- The sample archive has a stream and a record, and over a run in which both are moved a session
with chunks of the usual size stays coherent. -/
theorem run_stays_coherent_of_sample :
    ({} : Settings).chunkSize < FullStream.chunkLimit ∧
    ∀ s ∈ start {} 1 ["p", "q"] :: ((start {} 1 ["p", "q"]).run (.ofContent Sample.content)
        [.nextPackage, .streamChunk .willing, .nextPackage,
          .transferKeyValue SinkLog.willing, .nextPackage]).map Moment.session,
      s.Coherent ∧ s.Guarded ∧ s.Ruled ∧ s.packages = ["p", "q"] ∧ s.chunkSize = 2048 := by
  have small : ({} : Settings).chunkSize < FullStream.chunkLimit := by decide
  exact ⟨small, run_stays_coherent small 1 ["p", "q"] (.ofContent Sample.content) _⟩

/-- The call that finds a package's stream sets the mode, though there is no stream if its chunks
are to be larger than any buffer; and a call for a chunk is then refused as if none had been made
for a package. -/
theorem mode_of_large_chunks [Zip.Codecs] {settings : Settings}
    (large : FullStream.chunkLimit ≤ settings.chunkSize) {package : String} {m m₁ : Medium}
    (looked : classify settings.layout package m = (.ok .fullStream, m₁)) (token : Nat)
    (rest : List String) :
    ∃ moment ∈ (start settings token (package :: rest)).run m [.nextPackage],
      moment.session.currentPackage? = some package ∧ moment.session.mode = .fullStream ∧
      moment.session.stream = none ∧
      (moment.session.streamChunk moment.medium .willing).1 = .error .noStream := by
  let s := start settings token (package :: rest)
  have sought : (s.seekPackage m 0 (package :: rest)).2.1 = (s.choose 0 package .fullStream).2 := by
    rw [seekPackage_cons (s := s) looked 0 rest]
    rfl
  have after : (s.perform m .nextPackage).session =
      { s with place := .at 0, mode := .fullStream } := by
    have given : (s.perform m .nextPackage).session =
        (s.seekPackage m 0 (package :: rest)).2.1 := rfl
    rw [given, sought, choose_of_no_stream rfl, if_neg fun both => Nat.not_lt.2 large both.2]
    rfl
  refine ⟨_, List.mem_singleton.2 rfl, ?_⟩
  rw [after]
  exact ⟨rfl, rfl, rfl, rfl⟩

/-- So a mode is left without a stream where an archive has one. -/
theorem run_leaves_mode_without_stream :
    ∃ moment ∈ (start { chunkSize := FullStream.chunkLimit } 1 ["p"]).run
        (.ofContent Sample.content) [.nextPackage],
      moment.session.currentPackage? = some "p" ∧ moment.session.mode = .fullStream ∧
      moment.session.stream = none ∧
      (moment.session.streamChunk moment.medium .willing).1 = .error .noStream := by
  let settings : Settings := { chunkSize := FullStream.chunkLimit }
  have found : classifyIn Sample.content none settings.layout "p" = .ok .fullStream := by
    have unfit : ∀ e ∈ [Sample.stream, Sample.record],
        (Pattern.under (settings.layout.recordsOf "p")).selects e = false := by decide
    have fits : (Pattern.exactly (settings.layout.streamPath "p")).selects Sample.stream =
        true := by decide
    simp only [classifyIn, Sample.locateIn_content, unfit Sample.stream (by simp),
      unfit Sample.record (by simp), fits, if_true, Bool.false_eq_true, if_false]
  obtain ⟨m, -, -, looked⟩ := classify_of_faultless
    (Medium.faultless_ofContent Sample.content) settings.layout "p"
  have outcome : classifyIn Sample.content (Medium.ofContent Sample.content).reach
      settings.layout "p" = .ok .fullStream := found
  rw [outcome] at looked
  exact mode_of_large_chunks (Nat.le_refl _) looked 1 []

end Session
end BackupRestore
