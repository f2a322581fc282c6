/-
Module: BackupRestore.Proofs.Abreast
Purpose: Two runs of a stream over different media that answer every call alike.
Main exports: Delivery.Cuts, Delivery.Cuts.readOn, FullStream.cuts_openCursor,
  Cursor.Inflow.Twins, Cursor.Inflow.fetch_of_cuts, Cursor.Abreast, Cursor.Abreast.readChunk,
  FullStream.Abreast, FullStream.Abreast.pull
-/
import BackupRestore.Proofs.Streaming

namespace BackupRestore

/-!
Two cursors go on abreast for one of two reasons.  Either both hold the same rest and can read it
to its end; then it does not matter into which pieces the media cut it.  Or the data may be
damaged, and then it does: a chunk fails if the damage right behind it has come already.  But where
both media cut their reads in the same way (`Delivery.Cuts`), cursors that have the same compressed
bytes ahead of them fetch the same pieces, and so they fail together too.
-/

/-! ### Media that cut reads in one way -/

namespace Delivery

/-- A read that is not interrupted brings all that is asked for and there, or as much of it as the
bound allows. -/
structure Cuts (d : Delivery) (bound : Option Nat) : Prop where
  unblocked : d.blocked = none
  interrupting : ∀ fate ∈ d.fates, fate = .interrupted
  bounded : d.extraAtMost = bound

variable {d : Delivery} {bound : Option Nat}

/-- How many of `n` bytes come at once. -/
def piece (bound : Option Nat) (n : Nat) : Nat := ({ extraAtMost := bound } : Delivery).portion n

theorem piece_le (bound : Option Nat) (n : Nat) : piece bound n ≤ n := by
  cases bound with
  | none => exact Nat.le_refl n
  | some extra => exact Nat.min_le_left n _

theorem Cuts.sound (cuts : d.Cuts bound) : d.Sound := by
  refine ⟨cuts.unblocked, ?_⟩
  intro cause member
  cases cuts.interrupting _ member

theorem Cuts.portion (cuts : d.Cuts bound) (n : Nat) : d.portion n = piece bound n := by
  unfold piece Delivery.portion
  rw [cuts.bounded]

/-- What a read answers, and that the coming reads are cut in the same way. -/
theorem Cuts.read (cuts : d.Cuts bound) {available wanted : Nat} {answer : ReadAnswer}
    {d' : Delivery} (answered : d.read available wanted = (answer, d')) :
    d'.Cuts bound ∧
      (answer = .interrupted ∨ answer = .moved (piece bound (min wanted available))) := by
  unfold Delivery.read at answered
  rw [cuts.unblocked] at answered
  cases planned : d.fates with
  | nil =>
      rw [planned, cuts.portion] at answered
      cases answered
      exact ⟨cuts, Or.inr rfl⟩
  | cons fate fates =>
      have interrupting := cuts.interrupting
      rw [planned, List.forall_mem_cons] at interrupting
      obtain ⟨rfl, later⟩ := interrupting
      rw [planned] at answered
      cases answered
      exact ⟨⟨rfl, later, cuts.bounded⟩, Or.inl rfl⟩

theorem Cuts.readOn (cuts : d.Cuts bound) (available wanted : Nat) :
    ∃ d', d'.Cuts bound ∧
      d.readOn available wanted = (.ok (piece bound (min wanted available)), d') := by
  fun_induction Delivery.readOn d available wanted with
  | case1 d n d' answered =>
      obtain ⟨cuts', interrupted | moved⟩ := cuts.read answered
      · cases interrupted
      · cases moved
        exact ⟨d', cuts', rfl⟩
  | case2 d cause d' answered =>
      obtain ⟨-, interrupted | moved⟩ := cuts.read answered
      · cases interrupted
      · cases moved
  | case3 d d' answered _ ih => exact ih (cuts.read answered).1

theorem Cuts.fill (cuts : d.Cuts bound) (available wanted : Nat) :
    (d.fill available wanted).2.2.Cuts bound := by
  fun_induction Delivery.fill d available wanted with
  | case1 => exact cuts
  | case2 d available wanted _ cause d' answered => exact (cuts.read answered).1
  | case3 d available wanted _ d' answered _ ih => exact ih (cuts.read answered).1
  | case4 d available wanted _ d' answered => exact (cuts.read answered).1
  | case5 d available wanted _ n d' answered _ _ more failure d'' filled ih =>
      have rest := ih (cuts.read answered).1
      rw [filled] at rest
      exact rest

end Delivery

section Frames

variable {m : Medium} {bound : Option Nat}

end Frames

/-! ### Compressed data -/

namespace Cursor.Inflow

/-- The compressed bytes that are still to be fetched. -/
def ahead (f : Inflow) : List UInt8 := f.handle.upcoming f.limit

/-- The inflows are alike but for the place from which they fetch. -/
structure Twins (f f' : Inflow) : Prop where
  inflater : f'.inflater = f.inflater
  ahead : f'.ahead = f.ahead

/-- Two answers are the same, and leave twins on media that cut reads in one way. -/
inductive Echoes {α : Type} (bound : Option Nat) :
    Except IoError α × Inflow × Medium → Except IoError α × Inflow × Medium → Prop where
  | intro {answer : Except IoError α} {f f' : Inflow} {m m' : Medium} (twins : f.Twins f')
      (cuts : m.delivery.Cuts bound) (cuts' : m'.delivery.Cuts bound) :
      Echoes bound (answer, f, m) (answer, f', m')

variable {f f' : Inflow} {m m' : Medium} {bound : Option Nat}

/-- Where reads are cut in one way, what a fetch brings depends on the bytes ahead alone. -/
theorem fetch_of_cuts (cuts : m.delivery.Cuts bound) (f : Inflow) :
    ∃ next m', m'.delivery.Cuts bound ∧
      f.fetch m = (.ok (Delivery.piece bound (min fetchSize f.ahead.length)), next, m') ∧
      next.inflater =
        f.inflater.feed (f.ahead.take (Delivery.piece bound (min fetchSize f.ahead.length))) ∧
      next.ahead = f.ahead.drop (Delivery.piece bound (min fetchSize f.ahead.length)) := by
  have length : f.ahead.length = min f.limit f.handle.available := Medium.length_upcoming _ _
  generalize moved : Delivery.piece bound (min fetchSize f.ahead.length) = k
  have bounds := Delivery.piece_le bound (min fetchSize f.ahead.length)
  rw [moved] at bounds
  unfold fetch
  by_cases nothing : f.limit = 0
  · have empty : f.ahead = [] := by
      rw [ahead, nothing, Handle.upcoming_zero]
    have none_moved : k = 0 := by
      rw [empty] at bounds
      exact Nat.le_zero.1 (Nat.le_trans bounds (Nat.min_le_right _ _))
    subst none_moved
    rw [if_pos nothing]
    refine ⟨f, m, cuts, rfl, ?_, rfl⟩
    rw [List.take_zero, Deflate.Inflater.feed_nil]
  · rw [if_neg nothing]
    obtain ⟨d, cuts', answered⟩ := cuts.readOn f.handle.available (min f.limit fetchSize)
    have asked : min (min f.limit fetchSize) f.handle.available =
        min fetchSize f.ahead.length := by
      rw [length]
      omega
    rw [asked, moved] at answered
    have count : (f.handle.upcoming k).length = k := by
      rw [Medium.length_upcoming]
      omega
    have within : min k f.limit = k := by omega
    have here : f.handle.upcoming k = f.ahead.take k := by
      rw [ahead, Handle.upcoming_take, within]
    simp only [Medium.read, answered, count, within]
    refine ⟨_, _, cuts', rfl, ?_, ?_⟩
    · rw [here]
    · have dropped := f.handle.upcoming_drop f.limit k
      have available : min (min k f.limit) f.handle.available = k := by omega
      rw [available] at dropped
      exact dropped.symm

theorem Twins.fetch (twins : f.Twins f') (cuts : m.delivery.Cuts bound)
    (cuts' : m'.delivery.Cuts bound) : Echoes bound (f.fetch m) (f'.fetch m') := by
  obtain ⟨next, m₁, cuts₁, fetched, inflater, ahead⟩ := fetch_of_cuts cuts f
  obtain ⟨next', m₁', cuts₁', fetched', inflater', ahead'⟩ := fetch_of_cuts cuts' f'
  rw [twins.ahead] at fetched' inflater' ahead'
  rw [twins.inflater, ← inflater] at inflater'
  rw [fetched, fetched']
  exact .intro ⟨inflater', ahead'.trans ahead.symm⟩ cuts₁ cuts₁'

theorem Twins.withInflater (twins : f.Twins f') (inflater : Deflate.Inflater) :
    Twins { f with inflater } { f' with inflater } :=
  ⟨rfl, twins.ahead⟩

theorem Twins.forget (twins : f.Twins f') : f.forget.Twins f'.forget := by
  refine ⟨?_, twins.ahead⟩
  simp only [Inflow.forget, twins.inflater]

theorem Twins.deliver (twins : f.Twins f') (n : Nat) :
    (f'.deliver n).1 = (f.deliver n).1 ∧ (f.deliver n).2.Twins (f'.deliver n).2 := by
  unfold Inflow.deliver
  rw [twins.inflater]
  exact ⟨rfl, twins.withInflater _⟩

theorem Twins.deliverLast (twins : f.Twins f') (cuts : m.delivery.Cuts bound)
    (cuts' : m'.delivery.Cuts bound) (before n : Nat) :
    Echoes bound (f.deliverLast m before n) (f'.deliverLast m' before n) := by
  obtain ⟨same, behind⟩ := twins.deliver n
  unfold Inflow.deliverLast
  generalize f.deliver n = delivered at same behind
  generalize f'.deliver n = delivered' at same behind
  obtain ⟨bytes, next⟩ := delivered
  obtain ⟨bytes', next'⟩ := delivered'
  simp only at same behind ⊢
  subst same
  have dry : next'.isDry = next.isDry := by
    simp only [isDry, behind.inflater]
  rw [dry]
  split
  · have fetched := behind.fetch cuts cuts'
    generalize next.fetch m = answer at fetched
    generalize next'.fetch m' = answer' at fetched
    cases fetched with
    | @intro answer _ _ _ _ twins₁ cuts₁ cuts₁' =>
        cases answer with
        | error cause => exact .intro twins₁.forget cuts₁ cuts₁'
        | ok count => exact .intro twins₁ cuts₁ cuts₁'
  · exact .intro behind cuts cuts'

/-- Decoding and fetching in turn goes alike.  Every fetch leaves less to fetch. -/
theorem Twins.fill (twins : f.Twins f') (cuts : m.delivery.Cuts bound)
    (cuts' : m'.delivery.Cuts bound) (before n : Nat) :
    Echoes bound (f.fill m before n) (f'.fill m' before n) := by
  induction left : f.limit using Nat.strongRecOn generalizing m m' f f' before with
  | _ limit ih =>
      rw [fill_eq, fill_eq, twins.inflater]
      rcases f.inflater.run n with ⟨inflater, stop⟩
      have twins₁ := twins.withInflater inflater
      cases stop with
      | enough =>
          obtain ⟨same, behind⟩ := twins₁.deliver n
          simp only [same]
          exact .intro behind cuts cuts'
      | finished => exact twins₁.deliverLast cuts cuts' before n
      | corrupt => exact .intro twins₁.forget cuts cuts'
      | starved =>
          have fetched := twins₁.fetch cuts cuts'
          simp only
          generalize fetch : Inflow.fetch m { f with inflater } = answer at fetched
          generalize Inflow.fetch m' { f' with inflater } = answer' at fetched
          cases fetched with
          | @intro answer next next' m₁ m₁' twins₂ cuts₂ cuts₂' =>
              rcases answer with cause | _ | k
              · exact .intro twins₂.forget cuts₂ cuts₂'
              · exact .intro twins₂.forget cuts₂ cuts₂'
              · have shorter := Inflow.limit_fetch fetch
                simp only at shorter
                exact ih next.limit (by omega) twins₂ cuts₂ cuts₂' _ rfl

theorem Twins.readChunk (twins : f.Twins f') (cuts : m.delivery.Cuts bound)
    (cuts' : m'.delivery.Cuts bound) (n : Nat) :
    Echoes bound (f.readChunk m n) (f'.readChunk m' n) := by
  have dry : f'.isDry = f.isDry := by
    simp only [isDry, twins.inflater]
  unfold Inflow.readChunk
  rw [dry]
  split
  · exact .intro twins cuts cuts'
  · split
    · have fetched := twins.fetch cuts cuts'
      generalize f.fetch m = answer at fetched
      generalize f'.fetch m' = answer' at fetched
      cases fetched with
      | @intro answer _ _ _ _ twins₁ cuts₁ cuts₁' =>
          cases answer with
          | error cause => exact .intro twins₁.forget cuts₁ cuts₁'
          | ok count => exact twins₁.fill cuts₁ cuts₁' 0 n
    · exact twins.fill cuts cuts' 0 n

end Cursor.Inflow

/-! ### Cursors -/

/-- The cursors give the same chunks, each on its medium. -/
inductive Cursor.Abreast : Cursor → Medium → Cursor → Medium → Prop where
  /-- Both can read the same rest to its end. -/
  | whole {c c' : Cursor} {m m' : Medium} {rest : List UInt8} (here : c.Holds rest)
      (there : c'.Holds rest) (sound : m.delivery.Sound) (sound' : m'.delivery.Sound) :
      Abreast c m c' m'
  /-- Both fetch the same pieces. -/
  | twins {f f' : Cursor.Inflow} {m m' : Medium} {bound : Option Nat} (twins : f.Twins f')
      (cuts : m.delivery.Cuts bound) (cuts' : m'.delivery.Cuts bound) :
      Abreast (.deflated f.handle f.limit f.inflater) m
        (.deflated f'.handle f'.limit f'.inflater) m'

theorem Cursor.Abreast.readChunk {c c' : Cursor} {m m' : Medium} (abreast : c.Abreast m c' m')
    (n : Nat) :
    ∃ answer next m₁ next' m₁', c.readChunk m n = (answer, next, m₁) ∧
      c'.readChunk m' n = (answer, next', m₁') ∧ next.Abreast m₁ next' m₁' := by
  cases abreast with
  | whole here there sound sound' =>
      obtain ⟨next, m₁, read, reads, behind⟩ := readChunk_of_sound here sound n
      obtain ⟨next', m₁', read', reads', behind'⟩ := readChunk_of_sound there sound' n
      obtain ⟨d, kept, rfl⟩ := reads
      obtain ⟨d', kept', rfl⟩ := reads'
      exact ⟨_, _, _, _, _, read, read', .whole behind behind' (kept sound) (kept' sound')⟩
  | @twins f f' _ _ _ twins cuts cuts' =>
      have read := twins.readChunk cuts cuts' n
      unfold Cursor.readChunk
      generalize given : f.readChunk m n = answer at read
      generalize given' : f'.readChunk m' n = answer' at read
      cases read with
      | intro twins₁ cuts₁ cuts₁' =>
          simp only [given, given']
          exact ⟨_, _, _, _, _, rfl, rfl, .twins twins₁ cuts₁ cuts₁'⟩

/-! ### Streams -/

namespace FullStream

/-- The streams answer alike, each on its medium: they have the same package and chunk size and
have delivered as much, and both have ended for one reason, or their cursors are abreast. -/
inductive Abreast : FullStream → Medium → FullStream → Medium → Prop where
  | streaming {s : FullStream} {cursor cursor' : Cursor} {m m' : Medium}
      (cursors : cursor.Abreast m cursor' m') :
      Abreast { s with phase := .streaming cursor } m { s with phase := .streaming cursor' } m'
  | closed {s : FullStream} {reason : CloseReason} (m m' : Medium) :
      Abreast (s.close reason) m (s.close reason) m'

/-- Two calls have given the same answer and the same output, and leave streams abreast. -/
inductive Echoes : Except RestoreError ChunkResult × FullStream × Medium × Output →
    Except RestoreError ChunkResult × FullStream × Medium × Output → Prop where
  | intro {answer : Except RestoreError ChunkResult} {s s' : FullStream} {m m' : Medium}
      {o : Output} (abreast : s.Abreast m s' m') : Echoes (answer, s, m, o) (answer, s', m', o)

variable {s s' : FullStream} {m m' : Medium}

theorem Echoes.answer
    {given given' : Except RestoreError ChunkResult × FullStream × Medium × Output}
    (echoes : Echoes given given') : given'.1 = given.1 := by
  cases echoes
  rfl

theorem Abreast.streamed (abreast : s.Abreast m s' m') : s'.streamed = s.streamed := by
  cases abreast <;> rfl

/-- Steps from cursors that are abreast echo each other, whatever the streams did before. -/
theorem echoes_step {cursor cursor' : Cursor} (cursors : cursor.Abreast m cursor' m')
    (s : FullStream) (phase phase' : StreamPhase) (o : Output) :
    Echoes (({ s with phase := phase } : FullStream).step m cursor o)
      (({ s with phase := phase' } : FullStream).step m' cursor' o) := by
  obtain ⟨answer, next, m₁, next', m₁', read, read', behind⟩ := cursors.readChunk s.chunkSize
  simp only [step, read, read']
  cases answer with
  | error cause => exact .intro (.closed (s := s) _ _)
  | ok bytes =>
      simp only
      split
      · rcases o.flush with ⟨cause | done, o'⟩
        · exact .intro (.closed (s := s) _ _)
        · exact .intro (.closed (s := s) _ _)
      · rcases o.writeAll bytes with ⟨cause | done, o'⟩
        · exact .intro (.closed (s := s) _ _)
        · exact .intro
            (.streaming (s := { s with streamed := s.streamed + bytes.length }) behind)

theorem Abreast.nextChunk (abreast : s.Abreast m s' m') (layout : Layout) (o : Output) :
    Echoes (s.nextChunk layout m o) (s'.nextChunk layout m' o) := by
  cases abreast with
  | streaming cursors => exact echoes_step cursors _ _ _ o
  | @closed s reason => cases reason <;> exact .intro (.closed (s := s) m m')

/-- Two sequences of calls have answered alike and given alike. -/
structure Pulled.Same (p p' : Pulled) : Prop where
  answers : p'.answers = p.answers
  outputs : p'.outputs = p.outputs
  streamed : p'.stream.streamed = p.stream.streamed

/-- Behind calls that echo each other, all calls go alike if they do so for streams abreast. -/
theorem Echoes.pull {layout : Layout} {o : Output}
    (called : Echoes (s.nextChunk layout m o) (s'.nextChunk layout m' o)) {outputs : List Output}
    (later : ∀ {s s' : FullStream} {m m' : Medium}, s.Abreast m s' m' →
      (s.pull layout m outputs).Same (s'.pull layout m' outputs)) :
    (s.pull layout m (o :: outputs)).Same (s'.pull layout m' (o :: outputs)) := by
  unfold FullStream.pull
  generalize s.nextChunk layout m o = given at called
  generalize s'.nextChunk layout m' o = given' at called
  cases called with
  | intro behind =>
      obtain ⟨answers, taken, streamed⟩ := later behind
      constructor
      · simp only [answers]
      · simp only [taken]
      · exact streamed

/-- Calls on streams that are abreast go alike. -/
theorem Abreast.pull (abreast : s.Abreast m s' m') (layout : Layout) (outputs : List Output) :
    (s.pull layout m outputs).Same (s'.pull layout m' outputs) := by
  induction outputs generalizing s m s' m' with
  | nil => exact ⟨rfl, rfl, abreast.streamed⟩
  | cons o outputs ih => exact (abreast.nextChunk layout o).pull ih

end FullStream

end BackupRestore
