/-
Module: BackupRestore.Proofs.Streaming
Purpose: The chunks of a full stream are its payload, cut into pieces of one size.
Main exports: Output.Takes, pieces, chunkCount, resultAt, FullStream.pull, FullStream.Promises,
  FullStream.nextChunk_of_promises, FullStream.pull_of_promises, FullStream.pull_delivers_payload
-/
import BackupRestore.Proofs.Chunks
import BackupRestore.Proofs.Writing

namespace BackupRestore

/-!
A stream promises the rest of a payload: what its cursor holds, all of the package's payload
before it has been opened, and nothing once it has ended (`FullStream.Promises`).  A call moves
the next piece of what is promised to its output, and the rest stays promised.  So however
often a stream is called, its outputs get the payload in pieces of one size, and how many
pieces there are and how long the last one is follows from the length of the payload.
-/

/-! ### Pieces -/

/-- The first `n` pieces of some bytes, each of `size` bytes as long as there are any. -/
def pieces (size : Nat) : (n : Nat) → List UInt8 → List (List UInt8)
  | 0, _ => []
  | n + 1, bytes => bytes.take size :: pieces size n (bytes.drop size)

/-- How many pieces of `size` bytes hold `length` bytes: the quotient, rounded up. -/
def chunkCount (length size : Nat) : Nat := (length + (size - 1)) / size

/-- What the call with the number `i` reports of a payload of `length` bytes: a full chunk
before the last one, what is left for that, and nothing more from then on. -/
def resultAt (length size i : Nat) : ChunkResult :=
  if i + 1 < chunkCount length size then .data size
  else if i + 1 = chunkCount length size then
    .data (length - size * (chunkCount length size - 1))
  else .noMoreData

/-- What a call reports that has moved this many bytes. -/
def ChunkResult.ofCount (n : Nat) : ChunkResult := if n = 0 then .noMoreData else .data n

theorem pieces_eq (size n : Nat) (bytes : List UInt8) :
    pieces size n bytes = (List.range n).map fun i => (bytes.drop (i * size)).take size := by
  induction n generalizing bytes with
  | zero => rfl
  | succ n ih =>
      rw [pieces, ih, List.range_succ_eq_map, List.map_cons, List.map_map, Nat.zero_mul,
        List.drop_zero]
      congr 1
      apply List.map_congr_left
      intro i _
      simp only [Function.comp_apply, List.drop_drop, Nat.succ_mul, Nat.add_comm]

/-- Pieces put together are the bytes from which they were cut, as far as they reach. -/
theorem flatten_pieces (size n : Nat) (bytes : List UInt8) :
    (pieces size n bytes).flatten = bytes.take (n * size) := by
  induction n generalizing bytes with
  | zero => simp [pieces]
  | succ n ih =>
      rw [pieces, List.flatten_cons, ih, ← List.take_add, Nat.succ_mul, Nat.add_comm]

section Counting

variable {size : Nat} (length : Nat)

theorem length_le_of_chunkCount (some_size : 0 < size) :
    length ≤ chunkCount length size * size := by
  have bound := Nat.lt_div_mul_add (a := length + (size - 1)) some_size
  unfold chunkCount
  omega

theorem chunkCount_mul_le (some_size : 0 < size) :
    chunkCount length size * size < length + size := by
  have bound := Nat.div_mul_le_self (length + (size - 1)) size
  unfold chunkCount
  omega

/-- The piece with the number `i` is as long as is reported. -/
theorem ofCount_eq_resultAt (some_size : 0 < size) (i : Nat) :
    ChunkResult.ofCount (min size (length - i * size)) = resultAt length size i := by
  have above := length_le_of_chunkCount length some_size
  have below := chunkCount_mul_le length some_size
  unfold ChunkResult.ofCount resultAt
  generalize chunkCount length size = chunks at above below
  by_cases full : i + 1 < chunks
  · have later : (i + 2) * size ≤ chunks * size := Nat.mul_le_mul_right size full
    rw [Nat.add_mul] at later
    have whole : min size (length - i * size) = size := by omega
    rw [if_pos full, whole, if_neg (Nat.ne_of_gt some_size)]
  · rw [if_neg full]
    by_cases last : i + 1 = chunks
    · subst last
      rw [Nat.add_mul] at above below
      have left : min size (length - i * size) = length - i * size := by omega
      rw [if_pos rfl, left, if_neg (by omega), Nat.add_sub_cancel, Nat.mul_comm size i]
    · have earlier : chunks * size ≤ i * size := Nat.mul_le_mul_right size (by omega)
      have none_left : min size (length - i * size) = 0 := by omega
      rw [if_neg last, if_pos none_left]

end Counting

/-- What is reported of pieces is what the length of the bytes says. -/
theorem results_of_pieces {size : Nat} (some_size : 0 < size) (n : Nat) (bytes : List UInt8) :
    (pieces size n bytes).map (fun piece => ChunkResult.ofCount piece.length) =
      (List.range n).map (resultAt bytes.length size) := by
  rw [pieces_eq, List.map_map]
  apply List.map_congr_left
  intro i _
  simp only [Function.comp_apply, List.length_take, List.length_drop]
  exact ofCount_eq_resultAt _ some_size i

/-! ### Outputs -/

namespace Output

/-- The output takes all of `bytes`, and a flush of it succeeds. -/
structure Takes (o : Output) (bytes : List UInt8) : Prop where
  writes : (o.writeAll bytes).1 = .ok ()
  flushes : o.flush.1 = .ok ()

/-- An output that takes everything at once takes any bytes. -/
theorem takes_willing (bytes : List UInt8) : willing.Takes bytes := by
  refine ⟨?_, rfl⟩
  cases bytes with
  | nil => rw [writeAll]
  | cons b rest =>
      have written : willing.write (b :: rest) = (.ok (rest.length + 1),
          { willing with writes := 1 }.accept (b :: rest) (rest.length + 1)) := rfl
      rw [writeAll, written]
      simp only [List.drop_length]
      rw [writeAll]

end Output

/-! ### Streams -/

namespace FullStream

/-- What some calls of a stream give, and what they leave. -/
structure Pulled where
  answers : List (Except RestoreError ChunkResult)
  outputs : List Output
  stream : FullStream
  medium : Medium

/-- Move one chunk to each of some outputs, one after the other. -/
def pull (s : FullStream) (layout : Layout) (m : Medium) : List Output → Pulled
  | [] => { answers := [], outputs := [], stream := s, medium := m }
  | o :: outputs =>
      match s.nextChunk layout m o with
      | (answer, s, m, o) =>
          let later := s.pull layout m outputs
          { later with answers := answer :: later.answers, outputs := o :: later.outputs }

/-- The bytes `rest` are what the stream has still to move, if no open and no read of an archive
with the bytes `c` fails. -/
inductive Promises [Zip.Codecs] (layout : Layout) (c : Content) (reach : Option Nat) :
    FullStream → List UInt8 → Prop where
  | unopened {s : FullStream} {e : Zip.Entry} {payload : List UInt8} (phase : s.phase = .notStarted)
      (leads : e.Leads c reach (layout.streamPath s.package))
      (stands : e.payload c reach = .ok payload) : Promises layout c reach s payload
  | streaming {s : FullStream} {cursor : Cursor} {rest : List UInt8}
      (phase : s.phase = .streaming cursor) (holds : cursor.Holds rest) :
      Promises layout c reach s rest
  | ended {s : FullStream} (phase : s.phase = .closed .exhausted) : Promises layout c reach s []

/-- One call has moved `piece` to the output, and leaves nothing to be opened. -/
structure Moves (s : FullStream) (o : Output) (piece : List UInt8)
    (answer : Except RestoreError ChunkResult) (s' : FullStream) (o' : Output) : Prop where
  answers : answer = .ok (.ofCount piece.length)
  taken : o'.taken = o.taken ++ piece
  streamed : s'.streamed = s.streamed + piece.length
  chunkSize : s'.chunkSize = s.chunkSize
  opened : s'.openings = 0

section Steps

variable [Zip.Codecs] {layout : Layout} {c : Content} {reach : Option Nat} {s : FullStream}
  {m : Medium} {o : Output} {rest : List UInt8}

/-- A step from a cursor moves the next piece of what it holds. -/
theorem step_of_holds {cursor : Cursor} (holds : cursor.Holds rest) (sound : m.delivery.Sound)
    (some_size : 0 < s.chunkSize) (takes : o.Takes (rest.take s.chunkSize)) :
    ∃ answer s' m' o', s.step m cursor o = (answer, s', m', o') ∧ m.LeadsTo m' ∧
      m'.opens = m.opens ∧ s.Moves o (rest.take s.chunkSize) answer s' o' ∧
      Promises layout c reach s' (rest.drop s.chunkSize) := by
  obtain ⟨next, m₁, read, reads, behind⟩ := Cursor.readChunk_of_sound holds sound s.chunkSize
  unfold step
  rw [read]
  simp only
  by_cases ended : rest.take s.chunkSize = []
  · have nothing : rest = [] := by
      rcases List.take_eq_nil_iff.1 ended with no_size | nothing
      · exact absurd no_size (Nat.ne_of_gt some_size)
      · exact nothing
    subst nothing
    have flushed := takes.flushes
    have kept := o.taken_flush
    generalize o.flush = answer at flushed kept
    obtain ⟨answer, o'⟩ := answer
    simp only at flushed kept
    subst flushed
    simp only [List.take_nil, List.isEmpty_nil, if_true]
    refine ⟨_, _, _, o', rfl, reads.leadsTo.release, reads.opens, ⟨rfl, ?_, rfl, rfl, rfl⟩, ?_⟩
    · rw [kept, List.append_nil]
    · rw [List.drop_nil]
      exact .ended rfl
  · have some_left : (rest.take s.chunkSize).isEmpty = false := by
      rw [List.isEmpty_eq_false_iff]
      exact ended
    have gained := Output.taken_writeAll takes.writes
    have written := takes.writes
    generalize o.writeAll (rest.take s.chunkSize) = answer at written gained
    obtain ⟨answer, o'⟩ := answer
    simp only at written gained
    subst written
    simp only [some_left, Bool.false_eq_true, if_false]
    refine ⟨_, _, _, o', rfl, reads.leadsTo, reads.opens, ⟨?_, gained, rfl, rfl, rfl⟩,
      .streaming rfl behind⟩
    have count : (rest.take s.chunkSize).length ≠ 0 := by
      intro none_left
      exact ended (List.eq_nil_of_length_eq_zero none_left)
    rw [ChunkResult.ofCount, if_neg count]

/-- A call moves the next piece of what is promised, and the rest stays promised. -/
theorem nextChunk_of_promises (promises : Promises layout c m.reach s rest)
    (faultless : m.Faultless c) (some_size : 0 < s.chunkSize)
    (takes : o.Takes (rest.take s.chunkSize)) :
    ∃ answer s' m' o', s.nextChunk layout m o = (answer, s', m', o') ∧ m'.Faultless c ∧
      m'.reach = m.reach ∧ m'.opens = m.opens + s.openings ∧
      s.Moves o (rest.take s.chunkSize) answer s' o' ∧
      Promises layout c m.reach s' (rest.drop s.chunkSize) := by
  unfold nextChunk
  cases promises with
  | unopened phase leads stands =>
      obtain ⟨cursor, m₁, opened, faultless₁, reach₁, opens, holds⟩ :=
        s.openCursor_of_faultless faultless layout leads stands
      obtain ⟨answer, s', m', o', stepped, kept, same_opens, moves, promises'⟩ :=
        step_of_holds holds faultless₁.sound some_size takes
      have once : s.openings = 1 := by simp only [openings, phase]
      refine ⟨answer, s', m', o', ?_, kept.faultless c faultless₁, kept.reach.trans reach₁, ?_,
        moves, promises'⟩
      · simp only [phase, opened, stepped]
      · rw [same_opens, opens, once]
  | streaming phase holds =>
      obtain ⟨answer, s', m', o', stepped, kept, same_opens, moves, promises'⟩ :=
        step_of_holds holds faultless.sound some_size takes
      have never : s.openings = 0 := by simp only [openings, phase]
      refine ⟨answer, s', m', o', ?_, kept.faultless c faultless, kept.reach, ?_, moves, promises'⟩
      · simp only [phase, stepped]
      · rw [same_opens, never, Nat.add_zero]
  | ended phase =>
      have never : s.openings = 0 := by simp only [openings, phase]
      rw [List.take_nil, List.drop_nil]
      refine ⟨.ok .noMoreData, s, m, o, ?_, faultless, rfl, ?_, ⟨rfl, ?_, rfl, rfl, never⟩,
        .ended phase⟩
      · simp only [phase]
      · rw [never, Nat.add_zero]
      · rw [List.append_nil]

/-- Calls of a stream cut what is promised into pieces, and hand out one after the other. -/
theorem pull_of_promises (promises : Promises layout c m.reach s rest) (faultless : m.Faultless c)
    (some_size : 0 < s.chunkSize) (outputs : List Output)
    (take : ∀ pair ∈ outputs.zip (pieces s.chunkSize outputs.length rest), pair.1.Takes pair.2) :
    (s.pull layout m outputs).answers =
        (pieces s.chunkSize outputs.length rest).map (fun piece => .ok (.ofCount piece.length)) ∧
      (s.pull layout m outputs).outputs.map Output.taken =
        List.zipWith (· ++ ·) (outputs.map Output.taken)
          (pieces s.chunkSize outputs.length rest) ∧
      (s.pull layout m outputs).stream.streamed =
        s.streamed + (rest.take (outputs.length * s.chunkSize)).length ∧
      (s.pull layout m outputs).medium.opens =
        m.opens + if outputs = [] then 0 else s.openings := by
  induction outputs generalizing s m rest with
  | nil => simp [pull, pieces]
  | cons o outputs ih =>
      obtain ⟨answer, s', m', o', called, faultless', reach, opens, moves, promises'⟩ :=
        nextChunk_of_promises promises faultless some_size (take _ List.mem_cons_self)
      have size := moves.chunkSize
      rw [← reach] at promises'
      have take' : ∀ pair ∈ outputs.zip
          (pieces s'.chunkSize outputs.length (rest.drop s.chunkSize)), pair.1.Takes pair.2 := by
        rw [size]
        intro pair member
        apply take
        exact List.mem_cons_of_mem _ member
      obtain ⟨answers, taken, streamed, opens'⟩ := ih promises' faultless' (size ▸ some_size) take'
      rw [size] at answers taken streamed
      simp only [pull, called, List.length_cons, pieces, List.map_cons, List.zipWith_cons_cons]
      refine ⟨?_, ?_, ?_, ?_⟩
      · rw [answers, moves.answers]
      · rw [taken, moves.taken]
      · rw [streamed, moves.streamed, Nat.succ_mul, Nat.add_comm (outputs.length * s.chunkSize),
          List.take_add, List.length_append, Nat.add_assoc]
      -- The first call leaves nothing to be opened, so the later ones open nothing.
      · rw [opens', moves.opened, opens]
        simp

end Steps

/-- The calls have delivered a payload to the outputs in chunks of `size` bytes. -/
structure Delivers (payload : List UInt8) (size : Nat) (outputs : List Output) (m : Medium)
    (pulled : Pulled) : Prop where
  /-- As many full chunks as there are, then what is left, then nothing on every call. -/
  answers : pulled.answers =
    (List.range outputs.length).map fun i => .ok (resultAt payload.length size i)
  /-- Each output gets the piece of its call behind what it had. -/
  taken : pulled.outputs.map Output.taken =
    List.zipWith (· ++ ·) (outputs.map Output.taken) (pieces size outputs.length payload)
  streamed : pulled.stream.streamed = min (outputs.length * size) payload.length
  /-- Enough calls deliver all of it. -/
  complete : chunkCount payload.length size ≤ outputs.length →
    (pieces size outputs.length payload).flatten = payload ∧
      pulled.stream.streamed = payload.length
  /-- The archive is opened once. -/
  opens : pulled.medium.opens = m.opens + if outputs = [] then 0 else 1

/-- Where no open and no read fails, however the reads are cut up, a stream delivers the payload
of the first entry that has the package's path, chunk by chunk. -/
theorem pull_delivers_payload [Zip.Codecs] {m : Medium} {c : Content}
    (faultless : m.Faultless c) {layout : Layout} {package : String} {e : Zip.Entry}
    {payload : List UInt8} (leads : e.Leads c m.reach (layout.streamPath package))
    (stands : e.payload c m.reach = .ok payload) {size : Nat} (some_size : 0 < size)
    (outputs : List Output)
    (take : ∀ pair ∈ outputs.zip (pieces size outputs.length payload), pair.1.Takes pair.2) :
    Delivers payload size outputs m
      (({ package, chunkSize := size } : FullStream).pull layout m outputs) := by
  have promises : Promises layout c m.reach { package, chunkSize := size } payload :=
    .unopened rfl leads stands
  obtain ⟨answers, taken, streamed, opens⟩ :=
    pull_of_promises promises faultless some_size outputs take
  rw [List.length_take] at streamed
  have amount := streamed.trans (Nat.zero_add _)
  refine ⟨?_, taken, amount, ?_, opens⟩
  · have results := results_of_pieces some_size outputs.length payload
    calc _ = ((pieces size outputs.length payload).map fun piece =>
          ChunkResult.ofCount piece.length).map .ok := by
          rw [answers, List.map_map]
          rfl
      _ = _ := by
          rw [results, List.map_map]
          rfl
  · intro enough
    have whole : payload.length ≤ outputs.length * size :=
      Nat.le_trans (length_le_of_chunkCount _ some_size) (Nat.mul_le_mul_right size enough)
    rw [flatten_pieces, List.take_of_length_le whole, amount, Nat.min_eq_right whole]
    exact ⟨rfl, rfl⟩

/-- The sample archive delivers the payload `data` of the package `p` in chunks of three bytes to
three outputs: three bytes, one byte, and nothing more. -/
theorem pull_delivers_payload_of_sample :
    (Medium.ofContent Sample.content).Faultless Sample.content ∧
      Sample.stream.Leads Sample.content none (Sample.layout.streamPath "p") ∧
      Sample.stream.payload Sample.content none = .ok [100, 97, 116, 97] ∧ 0 < 3 ∧
      (∀ pair ∈ [Output.willing, .willing, .willing].zip [[100, 97, 116], [97], []],
        pair.1.Takes pair.2) ∧
      Delivers [100, 97, 116, 97] 3 [.willing, .willing, .willing] (.ofContent Sample.content)
        (({ package := "p", chunkSize := 3 } : FullStream).pull Sample.layout
          (.ofContent Sample.content) [.willing, .willing, .willing]) := by
  have faultless := Medium.faultless_ofContent Sample.content
  have leads : Sample.stream.Leads Sample.content none (Sample.layout.streamPath "p") := by
    refine ⟨⟨_, [], [Sample.record], Sample.read_content, rfl, ?_, ?_⟩, by decide, rfl, rfl⟩
    · intro e passed
      cases passed
    · intro e passed
      cases passed
  have take : ∀ pair ∈ [Output.willing, .willing, .willing].zip [[100, 97, 116], [97], []],
      pair.1.Takes pair.2 := by
    intro pair member
    simp only [List.zip_cons_cons, List.zip_nil_right, List.mem_cons, List.not_mem_nil,
      or_false] at member
    rcases member with rfl | rfl | rfl
    · exact Output.takes_willing _
    · exact Output.takes_willing _
    · exact Output.takes_willing _
  exact ⟨faultless, leads, Sample.payload_stream, by decide, take,
    pull_delivers_payload faultless leads Sample.payload_stream (by decide) _ take⟩

end FullStream

end BackupRestore
