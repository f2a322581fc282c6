/-
Module: BackupRestore.Proofs.Phases
Purpose: In which ways a stream can go on, and what a call says of the phase that it leaves.
Main exports: FullStream.Starts, FullStream.Course, FullStream.course_nextChunk,
  FullStream.Event, FullStream.Moment, FullStream.History, FullStream.run, FullStream.Agrees,
  FullStream.Orderly, FullStream.run_is_orderly
-/
import BackupRestore.Proofs.Handles

namespace BackupRestore.FullStream

/-!
A call for a chunk goes one of seven ways (`Course`): the stream had ended, or it cannot be
opened, or a chunk is read and moved, or one of the read, the write and the flush fails, or the
end of the data is met and passed on.  What a call says, and what it leaves, is read off its way;
so is the phase in which a stream can be found, and what has been asked of its outputs before.
-/

/-! ### One call -/

section Call

variable {s : FullStream} {layout : Layout} {m : Medium} {o : Output}

/-- A chunk is to be read from `cursor` on the second medium: the stream held it before, or has
been opened by this call. -/
inductive Starts (s : FullStream) (layout : Layout) (m : Medium) : Cursor → Medium → Prop where
  | held {cursor : Cursor} (phase : s.phase = .streaming cursor) : Starts s layout m cursor m
  | opened {cursor : Cursor} {m₁ : Medium} (phase : s.phase = .notStarted)
      (found : s.openCursor layout m = (.ok cursor, m₁)) : Starts s layout m cursor m₁

theorem not_starts_of_closed {reason : CloseReason} (phase : s.phase = .closed reason)
    {cursor : Cursor} {m₁ : Medium} : ¬s.Starts layout m cursor m₁ := by
  intro starts
  cases starts with
  | held phase' =>
      rw [phase] at phase'
      cases phase'
  | opened phase' found =>
      rw [phase] at phase'
      cases phase'

theorem not_starts_of_refused {e : RestoreError} {m' : Medium} (phase : s.phase = .notStarted)
    (failed : s.openCursor layout m = (.error e, m')) {cursor : Cursor} {m₁ : Medium} :
    ¬s.Starts layout m cursor m₁ := by
  intro starts
  cases starts with
  | held phase' =>
      rw [phase] at phase'
      cases phase'
  | opened phase' found =>
      rw [failed] at found
      cases found

/-- A call reads from one place only. -/
theorem Starts.unique {cursor cursor' : Cursor} {m₁ m₁' : Medium}
    (one : s.Starts layout m cursor m₁) (other : s.Starts layout m cursor' m₁') :
    cursor = cursor' ∧ m₁ = m₁' := by
  cases one with
  | held phase =>
      cases other with
      | held phase' =>
          rw [phase] at phase'
          cases phase'
          exact ⟨rfl, rfl⟩
      | opened phase' found =>
          rw [phase] at phase'
          cases phase'
  | opened phase found =>
      cases other with
      | held phase' =>
          rw [phase] at phase'
          cases phase'
      | opened phase' found' =>
          rw [found] at found'
          cases found'
          exact ⟨rfl, rfl⟩

/-- A stream from which a chunk can be read has not ended. -/
theorem Starts.unclosed {cursor : Cursor} {m₁ : Medium} (starts : s.Starts layout m cursor m₁) :
    s.closeReason? = none := by
  unfold closeReason?
  cases starts with
  | held phase => rw [phase]
  | opened phase found => rw [phase]

/-- What a stream says that has ended. -/
def lastWord (s : FullStream) : CloseReason → Except RestoreError ChunkResult
  | .exhausted => .ok .noMoreData
  | .rejected => .error s.rejection
  | reason => .error (s.failure (.streamClosed reason))

/-- The ways in which a call for a chunk can go: what it meets, what it answers and what it
leaves. -/
inductive Course (s : FullStream) (layout : Layout) (m : Medium) (o : Output) :
    Except RestoreError ChunkResult → FullStream → Medium → Output → Prop where
  /-- The stream had ended. -/
  | closed {reason : CloseReason} (phase : s.phase = .closed reason) :
      Course s layout m o (s.lastWord reason) s m o
  /-- The stream cannot be opened. -/
  | refused {e : RestoreError} {m' : Medium} (phase : s.phase = .notStarted)
      (failed : s.openCursor layout m = (.error e, m')) :
      Course s layout m o (.error (s.openingError e)) (s.close .rejected) m' o
  /-- A chunk cannot be read. -/
  | unread {cursor cursor' : Cursor} {m₁ m₂ : Medium} {cause : IoError}
      (starts : s.Starts layout m cursor m₁)
      (read : cursor.readChunk m₁ s.chunkSize = (.error cause, cursor', m₂)) :
      Course s layout m o (.error (s.failure cause)) (s.close .failed) m₂.release o
  /-- At the end of the data, the output cannot pass on what it has. -/
  | unflushed {cursor cursor' : Cursor} {m₁ m₂ : Medium} {cause : IoError} {o' : Output}
      (starts : s.Starts layout m cursor m₁)
      (read : cursor.readChunk m₁ s.chunkSize = (.ok [], cursor', m₂))
      (flushed : o.flush = (.error cause, o')) :
      Course s layout m o (.error (s.failure cause)) (s.close .failed) m₂.release o'
  /-- The data has come to its end. -/
  | ended {cursor cursor' : Cursor} {m₁ m₂ : Medium} {o' : Output}
      (starts : s.Starts layout m cursor m₁)
      (read : cursor.readChunk m₁ s.chunkSize = (.ok [], cursor', m₂))
      (flushed : o.flush = (.ok (), o')) :
      Course s layout m o (.ok .noMoreData) (s.close .exhausted) m₂.release o'
  /-- The output does not take all of a chunk. -/
  | unwritten {cursor cursor' : Cursor} {m₁ m₂ : Medium} {bytes : List UInt8} {cause : IoError}
      {o' : Output} (starts : s.Starts layout m cursor m₁)
      (read : cursor.readChunk m₁ s.chunkSize = (.ok bytes, cursor', m₂)) (some_bytes : bytes ≠ [])
      (written : o.writeAll bytes = (.error cause, o')) :
      Course s layout m o (.error (s.failure cause)) (s.close .failed) m₂.release o'
  /-- A chunk has gone to the output. -/
  | moved {cursor cursor' : Cursor} {m₁ m₂ : Medium} {bytes : List UInt8} {o' : Output}
      (starts : s.Starts layout m cursor m₁)
      (read : cursor.readChunk m₁ s.chunkSize = (.ok bytes, cursor', m₂)) (some_bytes : bytes ≠ [])
      (written : o.writeAll bytes = (.ok (), o')) :
      Course s layout m o (.ok (.data bytes.length))
        { s with phase := .streaming cursor', streamed := s.streamed + bytes.length } m₂ o'

theorem Starts.nextChunk {cursor : Cursor} {m₁ : Medium} (starts : s.Starts layout m cursor m₁)
    (o : Output) : s.nextChunk layout m o = s.step m₁ cursor o := by
  unfold FullStream.nextChunk
  cases starts with
  | held phase => simp only [phase]
  | opened phase found => simp only [phase, found]

theorem Starts.course_step {cursor : Cursor} {m₁ : Medium} (starts : s.Starts layout m cursor m₁)
    {answer : Except RestoreError ChunkResult} {s' : FullStream} {m' : Medium} {o' : Output}
    (stepped : s.step m₁ cursor o = (answer, s', m', o')) :
    s.Course layout m o answer s' m' o' := by
  unfold FullStream.step at stepped
  split at stepped
  · rename_i read
    cases stepped
    exact .unread starts read
  · rename_i bytes cursor' m₂ read
    split at stepped
    · rename_i empty
      rw [List.isEmpty_iff.1 empty] at read
      split at stepped <;> rename_i flushed <;> cases stepped
      · exact .unflushed starts read flushed
      · exact .ended starts read flushed
    · rename_i some_bytes
      have some_bytes : bytes ≠ [] := fun empty => some_bytes (List.isEmpty_iff.2 empty)
      split at stepped <;> rename_i written <;> cases stepped
      · exact .unwritten starts read some_bytes written
      · exact .moved starts read some_bytes written

/-- Every call for a chunk goes one of the ways. -/
theorem course_nextChunk {answer : Except RestoreError ChunkResult} {s' : FullStream}
    {m' : Medium} {o' : Output} (called : s.nextChunk layout m o = (answer, s', m', o')) :
    s.Course layout m o answer s' m' o' := by
  cases phase : s.phase with
  | streaming cursor =>
      have starts : s.Starts layout m cursor m := .held phase
      exact starts.course_step (starts.nextChunk o ▸ called)
  | notStarted =>
      generalize found : s.openCursor layout m = answer₁
      obtain ⟨e | cursor, m₁⟩ := answer₁
      · unfold FullStream.nextChunk at called
        simp only [phase, found] at called
        cases called
        exact .refused phase found
      · have starts : s.Starts layout m cursor m₁ := .opened phase found
        exact starts.course_step (starts.nextChunk o ▸ called)
  | closed reason =>
      unfold FullStream.nextChunk at called
      cases reason <;> simp only [phase] at called <;> cases called <;> exact .closed phase

theorem closeReason?_eq_some {reason : CloseReason} :
    s.closeReason? = some reason ↔ s.phase = .closed reason := by
  unfold closeReason?
  cases s.phase <;> simp

theorem isRejection_openingError (s : FullStream) (e : RestoreError) :
    (s.openingError e).isRejection = true := by
  unfold openingError
  split
  · assumption
  · rfl

/-- An answer tells in which phase it leaves the stream of a package. -/
structure Agrees (package : String) (answer : Except RestoreError ChunkResult)
    (after : FullStream) : Prop where
  data : (∃ n, answer = .ok (.data n)) ↔ after.isOpen = true
  noMoreData : answer = .ok .noMoreData ↔ after.closeReason? = some .exhausted
  rejected : (∃ e, answer = .error e ∧ e.isRejection = true) ↔
    after.closeReason? = some .rejected
  transfer : (∃ source, answer = .error (.transfer package source)) ↔
    after.closeReason? = some .failed ∨ after.closeReason? = some .aborted
  /-- No other error is reported. -/
  errors : ∀ e, answer = .error e → e.isRejection = true ∨ ∃ source, e = .transfer package source

theorem agrees_of_failure {after : FullStream} (s : FullStream) (cause : IoError)
    (closed : after.closeReason? = some .failed ∨ after.closeReason? = some .aborted) :
    Agrees s.package (.error (s.failure cause)) after := by
  have ended : ∃ reason, after.phase = .closed reason := by
    rcases closed with failed | aborted
    · exact ⟨_, closeReason?_eq_some.1 failed⟩
    · exact ⟨_, closeReason?_eq_some.1 aborted⟩
  obtain ⟨reason, phase⟩ := ended
  refine ⟨?_, ?_, ?_, ?_, ?_⟩
  · simp [isOpen_of_closed phase]
  · rcases closed with closed | closed <;> simp [closed]
  · rcases closed with closed | closed <;> simp [closed, failure, RestoreError.isRejection]
  · simp [closed, failure]
  · intro e answer
    cases answer
    exact Or.inr ⟨_, rfl⟩

theorem agrees_of_rejection {after : FullStream} (package : String) {e : RestoreError}
    (rejection : e.isRejection = true) (closed : after.closeReason? = some .rejected) :
    Agrees package (.error e) after := by
  have phase := closeReason?_eq_some.1 closed
  have no_transfer : ∀ source, e ≠ .transfer package source := by
    rintro source rfl
    cases rejection
  refine ⟨?_, ?_, ?_, ?_, ?_⟩
  · simp [isOpen_of_closed phase]
  · simp [closed]
  · simp [closed, rejection]
  · simp [closed, no_transfer]
  · intro e answer
    cases answer
    exact Or.inl rejection

theorem agrees_of_noMoreData {after : FullStream} (package : String)
    (closed : after.closeReason? = some .exhausted) :
    Agrees package (.ok .noMoreData) after := by
  have phase := closeReason?_eq_some.1 closed
  refine ⟨?_, ?_, ?_, ?_, ?_⟩
  · simp [isOpen_of_closed phase]
  · simp [closed]
  · simp [closed]
  · simp [closed]
  · intro e answer
    cases answer

theorem agrees_of_data {after : FullStream} (package : String) (n : Nat) {cursor : Cursor}
    (phase : after.phase = .streaming cursor) : Agrees package (.ok (.data n)) after := by
  have unclosed : after.closeReason? = none := by simp [closeReason?, phase]
  refine ⟨?_, ?_, ?_, ?_, ?_⟩
  · simp [isOpen_of_streaming phase]
  · simp [unclosed]
  · simp [unclosed]
  · simp [unclosed]
  · intro e answer
    cases answer

/-- Whatever way a call goes, its answer tells the phase that it leaves. -/
theorem Course.agrees {answer : Except RestoreError ChunkResult} {s' : FullStream} {m' : Medium}
    {o' : Output} (course : s.Course layout m o answer s' m' o') :
    Agrees s.package answer s' := by
  cases course with
  | closed phase =>
      rename_i reason
      have closed := closeReason?_eq_some.2 phase
      cases reason with
      | exhausted => exact agrees_of_noMoreData _ closed
      | rejected => exact agrees_of_rejection _ rfl closed
      | failed => exact agrees_of_failure s _ (Or.inl closed)
      | aborted => exact agrees_of_failure s _ (Or.inr closed)
  | refused phase failed => exact agrees_of_rejection _ (s.isRejection_openingError _) rfl
  | unread starts read => exact agrees_of_failure s _ (Or.inl rfl)
  | unflushed starts read flushed => exact agrees_of_failure s _ (Or.inl rfl)
  | ended starts read flushed => exact agrees_of_noMoreData _ rfl
  | unwritten starts read some_bytes written => exact agrees_of_failure s _ (Or.inl rfl)
  | moved starts read some_bytes written => exact agrees_of_data _ _ rfl

/-- What a call leaves as it is: for which package the stream is and how long its chunks are. -/
theorem Course.keeps {answer : Except RestoreError ChunkResult} {s' : FullStream} {m' : Medium}
    {o' : Output} (course : s.Course layout m o answer s' m' o') :
    s'.package = s.package ∧ s'.chunkSize = s.chunkSize := by
  cases course <;> exact ⟨rfl, rfl⟩

/-- The package's stream is in an entry whose data cannot be read piece by piece. -/
def FindsUnusable (package : String) (layout : Layout) (m : Medium) : Prop :=
  ∃ a found m' e, locate m (.exactly (layout.streamPath package)) = (.ok (some (a, found)), m') ∧
    a.directory.entries[found.index]? = some e ∧
    (e.isEncrypted = true ∨ e.method.isSupported = false)

theorem openCursor_of_unusable (unusable : FindsUnusable s.package layout m) :
    ∃ e m', s.openCursor layout m = (.error e, m') := by
  obtain ⟨a, found, m₁, entry, located, here, unfit⟩ := unusable
  unfold openCursor Archive.intoCursor
  simp only [located, here]
  split
  · exact ⟨_, _, rfl⟩
  · unfold Cursor.openAt Zip.Entry.span
    rcases unfit with encrypted | unsupported
    · simp only [encrypted, if_true]
      exact ⟨_, _, rfl⟩
    · simp only [unsupported, Bool.not_false, if_true]
      split <;> exact ⟨_, _, rfl⟩

/-- A stream that is found in such an entry is rejected when it is to be opened. -/
theorem Course.rejected_of_unusable {answer : Except RestoreError ChunkResult} {s' : FullStream}
    {m' : Medium} {o' : Output} (course : s.Course layout m o answer s' m' o')
    (unopened : s.phase = .notStarted) (unusable : FindsUnusable s.package layout m) :
    s'.closeReason? = some .rejected := by
  obtain ⟨e, m₁, failed⟩ := openCursor_of_unusable unusable
  have never : ∀ {cursor m₁}, ¬s.Starts layout m cursor m₁ := not_starts_of_refused unopened failed
  cases course with
  | closed phase =>
      rw [unopened] at phase
      cases phase
  | refused phase failed => rfl
  | unread starts read => exact (never starts).elim
  | unflushed starts read flushed => exact (never starts).elim
  | ended starts read flushed => exact (never starts).elim
  | unwritten starts read some_bytes written => exact (never starts).elim
  | moved starts read some_bytes written => exact (never starts).elim

end Call

/-! ### Runs -/

/-- What happens in a run: a call of the host, or a change in how the medium answers. -/
inductive Event where
  | nextChunk (o : Output)
  | abort
  | plan (trouble : Trouble)

/-- The answer to a call for a chunk, and its output in front of the call and behind it. -/
structure Call where
  answer : Except RestoreError ChunkResult
  before : Output
  after : Output

/-- One event of a run, with the state in front of it and the state behind it. -/
structure Moment where
  event : Event
  earlier : FullStream
  before : Medium
  call? : Option Call := none
  stream : FullStream
  medium : Medium

/-- Let one event happen. -/
def perform (s : FullStream) (layout : Layout) (m : Medium) (event : Event) : Moment :=
  match event with
  | .nextChunk o =>
      match s.nextChunk layout m o with
      | (answer, stream, medium, after) =>
          { event, earlier := s, before := m, call? := some { answer, before := o, after }, stream,
            medium }
  | .abort =>
      match s.abort m with
      | (stream, medium) => { event, earlier := s, before := m, stream, medium }
  | .plan trouble =>
      { event, earlier := s, before := m, stream := s, medium := m.withTrouble trouble }

section Events

variable {s : FullStream} {layout : Layout} {m : Medium}

theorem abort_eq (s : FullStream) (m : Medium) :
    (s.abort m).1 = s.close (s.closeReason?.getD .aborted) := by
  obtain ⟨package, chunkSize, phase, streamed⟩ := s
  cases phase <;> rfl

/-- What an event makes of a stream: a call goes its way, an abort ends the stream unless it had
ended, and a change of the medium leaves it as it is. -/
theorem perform_cases (s : FullStream) (layout : Layout) (m : Medium) (event : Event) :
    (∃ o answer s' m' o', event = .nextChunk o ∧ s.Course layout m o answer s' m' o' ∧
      s.perform layout m event =
        { event, earlier := s, before := m, call? := some { answer, before := o, after := o' },
          stream := s', medium := m' }) ∨
    (∃ m', event = .abort ∧ s.perform layout m event =
      { event, earlier := s, before := m, stream := s.close (s.closeReason?.getD .aborted),
        medium := m' }) ∨
    (∃ trouble, event = .plan trouble ∧ s.perform layout m event =
      { event, earlier := s, before := m, stream := s, medium := m.withTrouble trouble }) := by
  cases event with
  | nextChunk o =>
      generalize called : s.nextChunk layout m o = result
      obtain ⟨answer, s', m', o'⟩ := result
      refine Or.inl ⟨o, answer, s', m', o', rfl, course_nextChunk called, ?_⟩
      simp only [perform, called]
  | abort =>
      refine Or.inr (Or.inl ⟨(s.abort m).2, rfl, ?_⟩)
      rw [← abort_eq s m]
      rfl
  | plan trouble => exact Or.inr (Or.inr ⟨trouble, rfl, rfl⟩)

/-- A moment begins where the event happens. -/
theorem perform_begins (s : FullStream) (layout : Layout) (m : Medium) (event : Event) :
    (s.perform layout m event).earlier = s ∧ (s.perform layout m event).before = m := by
  cases event <;> exact ⟨rfl, rfl⟩

/-- Every event keeps for which package the stream is and how long its chunks are. -/
theorem keeps_perform (s : FullStream) (layout : Layout) (m : Medium) (event : Event) :
    (s.perform layout m event).stream.package = s.package ∧
      (s.perform layout m event).stream.chunkSize = s.chunkSize := by
  rcases s.perform_cases layout m event with
    ⟨o, answer, s', m', o', rfl, course, eq⟩ | ⟨m', rfl, eq⟩ | ⟨trouble, rfl, eq⟩ <;> rw [eq]
  · exact course.keeps
  · exact ⟨rfl, rfl⟩
  · exact ⟨rfl, rfl⟩

end Events

/-- What has happened in a run, and where it has led. -/
structure History where
  moments : List Moment
  stream : FullStream
  medium : Medium

/-- Let events happen, one after the other. -/
def run (s : FullStream) (layout : Layout) (m : Medium) : List Event → History
  | [] => { moments := [], stream := s, medium := m }
  | event :: events =>
      let moment := s.perform layout m event
      let later := moment.stream.run layout moment.medium events
      { later with moments := moment :: later.moments }

section Runs

variable {s : FullStream} {layout : Layout} {m : Medium}

/-- What a run keeps with what has happened before it, it keeps until its end. -/
theorem run_induction_behind (Kept : List Moment → FullStream → Medium → Prop)
    {past : List Moment} (begins : Kept past s m)
    (step : ∀ past s m event, Kept past s m →
      Kept (past ++ [s.perform layout m event]) (s.perform layout m event).stream
        (s.perform layout m event).medium) (events : List Event) :
    Kept (past ++ (s.run layout m events).moments) (s.run layout m events).stream
      (s.run layout m events).medium := by
  induction events generalizing s m past with
  | nil =>
      rw [run, List.append_nil]
      exact begins
  | cons event events ih =>
      have later := ih (step past s m event begins)
      rw [List.append_assoc] at later
      simp only [run]
      exact later

/-- What holds where nothing has happened, and what every event keeps, the whole run keeps. -/
theorem run_induction (s : FullStream) (layout : Layout) (m : Medium)
    (Kept : List Moment → FullStream → Medium → Prop) (begins : Kept [] s m)
    (step : ∀ past s m event, Kept past s m →
      Kept (past ++ [s.perform layout m event]) (s.perform layout m event).stream
        (s.perform layout m event).medium) (events : List Event) :
    Kept (s.run layout m events).moments (s.run layout m events).stream
      (s.run layout m events).medium := by
  have whole := run_induction_behind Kept begins step events
  rw [List.nil_append] at whole
  exact whole

/-- What every moment has that has been, and the next one too, every moment up to that one has. -/
theorem forall_mem_concat {Good : Moment → Prop} {past : List Moment} {moment : Moment}
    (good : ∀ other ∈ past, Good other) (here : Good moment) :
    ∀ other ∈ past ++ [moment], Good other :=
  List.forall_mem_append.2 ⟨good, List.forall_mem_singleton.2 here⟩

/-- What every event keeps, the whole run keeps; and so each moment is as every event makes it. -/
theorem forall_run (Kept : FullStream → Prop) {Good : Moment → Prop} (begins : Kept s)
    (step : ∀ s m event, Kept s →
      Good (s.perform layout m event) ∧ Kept (s.perform layout m event).stream)
    (events : List Event) : ∀ moment ∈ (s.run layout m events).moments, Good moment := by
  have whole := run_induction s layout m (fun past s _ => (∀ moment ∈ past, Good moment) ∧ Kept s)
    ⟨fun _ member => absurd member List.not_mem_nil, begins⟩ ?_ events
  · exact whole.1
  · rintro past s m event ⟨good, kept⟩
    obtain ⟨here, kept'⟩ := step s m event kept
    exact ⟨forall_mem_concat good here, kept'⟩

/-- An event that leaves the stream `s` alone: it opens and reads nothing, and touches no
output. -/
structure Moment.Idle (s : FullStream) (moment : Moment) : Prop where
  stream : moment.stream = s
  medium : (∀ trouble, moment.event ≠ .plan trouble) → moment.medium = moment.before
  output : ∀ call ∈ moment.call?, call.after = call.before

/-- Whatever happens to a stream that has ended leaves it alone. -/
theorem idle_perform {reason : CloseReason} (phase : s.phase = .closed reason)
    (layout : Layout) (m : Medium) (event : Event) : (s.perform layout m event).Idle s := by
  cases event with
  | nextChunk o =>
      have unchanged : s.nextChunk layout m o = (s.lastWord reason, s, m, o) := by
        unfold FullStream.nextChunk
        cases reason <;> simp only [phase, lastWord]
      simp only [perform, unchanged]
      refine ⟨rfl, fun _ => rfl, ?_⟩
      intro call called
      cases called
      rfl
  | abort =>
      have unchanged : s.abort m = (s, m) := by
        unfold FullStream.abort
        simp only [phase]
      simp only [perform, unchanged]
      refine ⟨rfl, fun _ => rfl, ?_⟩
      intro call called
      cases called
  | plan trouble =>
      refine ⟨rfl, ?_, ?_⟩
      · intro unplanned
        exact absurd rfl (unplanned trouble)
      · intro call called
        cases called

theorem idle_run {reason : CloseReason} (phase : s.phase = .closed reason) (m : Medium)
    (events : List Event) :
    (∀ moment ∈ (s.run layout m events).moments, moment.Idle s) ∧
      (s.run layout m events).stream = s := by
  induction events generalizing m with
  | nil =>
      refine ⟨?_, rfl⟩
      intro moment member
      cases member
  | cons event events ih =>
      have here := idle_perform phase layout m event
      have later := ih (s.perform layout m event).medium
      rw [run, here.stream]
      refine ⟨?_, later.2⟩
      intro moment member
      rcases List.mem_cons.1 member with rfl | behind
      · exact here
      · exact later.1 moment behind

/-- A stream that has ended in a run is left alone from then on. -/
theorem idle_behind_closed (s : FullStream) (layout : Layout) (m : Medium)
    (events : List Event) :
    (s.run layout m events).moments.Pairwise fun moment next =>
      moment.stream.closeReason?.isSome = true → next.Idle moment.stream := by
  induction events generalizing s m with
  | nil => exact .nil
  | cons event events ih =>
      refine .cons ?_ (ih _ _)
      intro next behind closed
      obtain ⟨reason, ended⟩ := Option.isSome_iff_exists.1 closed
      exact (idle_run (closeReason?_eq_some.1 ended) _ events).1 next behind

/-- A stream that has ended in a run is what the run leads to. -/
theorem stream_of_closed {s : FullStream} {m : Medium} {events : List Event} {moment : Moment}
    (member : moment ∈ (s.run layout m events).moments) {reason : CloseReason}
    (closed : moment.stream.closeReason? = some reason) :
    (s.run layout m events).stream = moment.stream := by
  induction events generalizing s m with
  | nil => cases member
  | cons event events ih =>
      rcases List.mem_cons.1 member with rfl | behind
      · exact (idle_run (closeReason?_eq_some.1 closed) _ events).2
      · exact ih behind

/-- No output has been touched. -/
def Untouched (moments : List Moment) : Prop :=
  ∀ moment ∈ moments, ∀ call ∈ moment.call?, call.after = call.before

/-- As long as a stream has not been opened, and when it could not be, it has delivered nothing
and has touched no output. -/
def Reserved (past : List Moment) (s : FullStream) : Prop :=
  s.phase = .notStarted ∨ s.phase = .closed .rejected → s.streamed = 0 ∧ Untouched past

theorem untouched_nil : Untouched [] := by
  intro moment member
  cases member

theorem Untouched.append {past : List Moment} (untouched : Untouched past) {moment : Moment}
    (here : ∀ call ∈ moment.call?, call.after = call.before) : Untouched (past ++ [moment]) :=
  forall_mem_concat untouched here

theorem Reserved.perform {past : List Moment} (reserved : Reserved past s) (layout : Layout)
    (m : Medium) (event : Event) :
    Reserved (past ++ [s.perform layout m event]) (s.perform layout m event).stream := by
  rcases s.perform_cases layout m event with
    ⟨o, answer, s', m', o', rfl, course, eq⟩ | ⟨m', rfl, eq⟩ | ⟨trouble, rfl, eq⟩ <;>
    rw [eq] <;> intro unopened
  · -- Every other way opens the stream, and then it is never rejected.
    have kept : s' = s ∧ o' = o ∨
        (∃ reason, s' = s.close reason) ∧ s.phase = .notStarted ∧ o' = o := by
      cases course with
      | closed phase => exact Or.inl ⟨rfl, rfl⟩
      | refused phase failed => exact Or.inr ⟨⟨_, rfl⟩, phase, rfl⟩
      | unread starts read => simp [close] at unopened
      | unflushed starts read flushed => simp [close] at unopened
      | ended starts read flushed => simp [close] at unopened
      | unwritten starts read some_bytes written => simp [close] at unopened
      | moved starts read some_bytes written => simp at unopened
    rcases kept with ⟨rfl, rfl⟩ | ⟨⟨reason, rfl⟩, phase, rfl⟩
    · obtain ⟨none_moved, untouched⟩ := reserved unopened
      exact ⟨none_moved, untouched.append (by rintro call ⟨⟩; rfl)⟩
    · obtain ⟨none_moved, untouched⟩ := reserved (Or.inl phase)
      exact ⟨none_moved, untouched.append (by rintro call ⟨⟩; rfl)⟩
  · have rejected : s.phase = .closed .rejected := by
      cases phase : s.phase <;> simp_all [close, closeReason?]
    obtain ⟨none_moved, untouched⟩ := reserved (Or.inr rejected)
    exact ⟨none_moved, untouched.append nofun⟩
  · obtain ⟨none_moved, untouched⟩ := reserved unopened
    exact ⟨none_moved, untouched.append nofun⟩

end Runs

/-- In a run of a package's stream, answers and phases go together, and an end is for good. -/
structure Orderly (package : String) (layout : Layout) (h : History) : Prop where
  agrees : ∀ moment ∈ h.moments, ∀ call ∈ moment.call?, Agrees package call.answer moment.stream
  /-- A stream that has been rejected has delivered nothing, and no output has been touched. -/
  rejected : ∀ moment ∈ h.moments, moment.stream.closeReason? = some .rejected →
    moment.stream.streamed = 0 ∧ Untouched h.moments
  /-- An encrypted entry and one with an unsupported compression are rejected. -/
  unusable : ∀ moment ∈ h.moments, moment.call?.isSome = true →
    moment.earlier.phase = .notStarted → FindsUnusable package layout moment.before →
    moment.stream.closeReason? = some .rejected
  /-- When a stream has ended, no event changes it, opens or reads the archive, or touches an
  output, however the medium would answer. -/
  closed : h.moments.Pairwise fun moment next =>
    moment.stream.closeReason?.isSome = true → next.Idle moment.stream
  /-- An abort ends a stream that has not ended, and changes nothing else. -/
  aborted : ∀ moment ∈ h.moments, moment.event = .abort →
    moment.stream = moment.earlier.close (moment.earlier.closeReason?.getD .aborted)

/-- Every run of a stream is orderly, whatever is called, and whatever fails. -/
theorem run_is_orderly (package : String) (chunkSize : Nat) (layout : Layout) (m : Medium)
    (events : List Event) :
    Orderly package layout (({ package, chunkSize } : FullStream).run layout m events) := by
  refine ⟨?_, ?_, ?_, idle_behind_closed _ layout m events, ?_⟩
  · refine forall_run (fun s => s.package = package) rfl ?_ events
    intro s m event named
    refine ⟨?_, (keeps_perform s layout m event).1.trans named⟩
    rcases s.perform_cases layout m event with
      ⟨o, answer, s', m', o', rfl, course, eq⟩ | ⟨m', rfl, eq⟩ | ⟨trouble, rfl, eq⟩ <;>
      rw [eq] <;> intro call called <;> cases called
    rw [← named]
    exact course.agrees
  · intro moment member closed
    have kept := run_induction { package, chunkSize } layout m (fun past s _ => Reserved past s)
      (fun _ => ⟨rfl, untouched_nil⟩)
      (fun past s m event reserved => reserved.perform layout m event) events
    rw [stream_of_closed member closed] at kept
    exact kept (Or.inr (closeReason?_eq_some.1 closed))
  · refine forall_run (fun s => s.package = package) rfl ?_ events
    intro s m event named
    refine ⟨?_, (keeps_perform s layout m event).1.trans named⟩
    rcases s.perform_cases layout m event with
      ⟨o, answer, s', m', o', rfl, course, eq⟩ | ⟨m', rfl, eq⟩ | ⟨trouble, rfl, eq⟩ <;>
      rw [eq] <;> intro called unopened unusable
    · exact course.rejected_of_unusable unopened (named ▸ unusable)
    · cases called
    · cases called
  · refine forall_run (fun _ => True) trivial ?_ events
    intro s m event _
    refine ⟨?_, trivial⟩
    rcases s.perform_cases layout m event with
      ⟨o, answer, s', m', o', rfl, course, eq⟩ | ⟨m', rfl, eq⟩ | ⟨trouble, rfl, eq⟩ <;>
      rw [eq] <;> intro abort
    · cases abort
    · rfl
    · cases abort

end BackupRestore.FullStream
