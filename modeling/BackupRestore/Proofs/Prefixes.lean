/-
Module: BackupRestore.Proofs.Prefixes
Purpose: What reaches the outputs of a stream is a beginning of its data, whatever fails.
Main exports: FullStream.Moment.ReadFails, FullStream.Moment.WriteFails, FullStream.takenOf,
  FullStream.dataOf, FullStream.Moment.Effect, FullStream.Traced, FullStream.DeliversBeginning,
  FullStream.run_delivers_beginning
-/
import Mathlib.Algebra.GroupWithZero.Nat
import BackupRestore.Proofs.Phases
import BackupRestore.Proofs.Streaming

namespace BackupRestore

/-!
A call does one of three things to what has been delivered (`Moment.Effect`).  It delivers a
chunk: the next bytes that the cursor gives.  Or its output refuses part of such a chunk, and the
stream ends.  Or nothing is delivered; and then, if a read has failed, what had been read of the
chunk is lost with the cursor, as the stream ends.  So while a stream is open, what its outputs
have taken is just what its cursor has given (`Traced`), and only the last call of all can leave
more with an output than it reports.
-/

theorem chunkCount_mono {length length' : Nat} (size : Nat) (within : length ≤ length') :
    chunkCount length size ≤ chunkCount length' size :=
  Nat.div_le_div_right (Nat.add_le_add_right within _)

/-- Behind full chunks, one more holds what is left. -/
theorem chunkCount_mul_add {size n : Nat} (some_left : 0 < n) (within : n ≤ size) (count : Nat) :
    chunkCount (count * size + n) size = count + 1 := by
  have some_size : 0 < size := Nat.lt_of_lt_of_le some_left within
  have split : count * size + n + (size - 1) = (n - 1) + size * (count + 1) := by
    rw [Nat.mul_succ, Nat.mul_comm size count]
    omega
  rw [chunkCount, split, Nat.add_mul_div_left _ _ some_size,
    Nat.div_eq_of_lt (by omega), Nat.zero_add]

namespace FullStream

/-! ### What a run delivers -/

/-- What the output of a call has taken in it. -/
def Call.written (call : Call) : List UInt8 := call.after.taken.drop call.before.taken.length

/-- What an output has taken in the moment. -/
def Moment.written (moment : Moment) : List UInt8 := (moment.call?.map Call.written).getD []

/-- How much data the moment has reported. -/
def Moment.data? (moment : Moment) : Option Nat :=
  match moment.call?.map Call.answer with
  | some (.ok (.data n)) => some n
  | _ => none

/-- All that the outputs have taken, in the order of the calls. -/
def takenOf (moments : List Moment) : List UInt8 := moments.flatMap Moment.written

/-- All reports of data, in the order of the calls. -/
def dataOf (moments : List Moment) : List Nat := moments.filterMap Moment.data?

/-- A chunk is read from the first cursor, and the second is behind it. -/
def Moment.Reads (layout : Layout) (moment : Moment) (cursor : Cursor) (bytes : List UInt8)
    (cursor' : Cursor) : Prop :=
  ∃ m₁ m₂, moment.earlier.Starts layout moment.before cursor m₁ ∧
    cursor.readChunk m₁ moment.earlier.chunkSize = (.ok bytes, cursor', m₂)

/-- A chunk is asked for and cannot be read. -/
def Moment.ReadFails (layout : Layout) (moment : Moment) : Prop :=
  moment.call?.isSome = true ∧ ∃ cursor m₁ cause cursor' m₂,
    moment.earlier.Starts layout moment.before cursor m₁ ∧
    cursor.readChunk m₁ moment.earlier.chunkSize = (.error cause, cursor', m₂)

/-- A chunk has been read, and the output does not take all of it. -/
def Moment.WriteFails (layout : Layout) (moment : Moment) : Prop :=
  ∃ call ∈ moment.call?, ∃ cursor bytes cursor' cause o', moment.Reads layout cursor bytes cursor' ∧
    call.before.writeAll bytes = (.error cause, o')

theorem takenOf_append (past : List Moment) (moment : Moment) :
    takenOf (past ++ [moment]) = takenOf past ++ moment.written := by
  simp [takenOf]

theorem dataOf_append (past : List Moment) (moment : Moment) :
    dataOf (past ++ [moment]) = dataOf past ++ moment.data?.toList := by
  cases found : moment.data? <;> simp [dataOf, found]

section Failures

variable {layout : Layout} {moment : Moment} {cursor cursor' : Cursor} {bytes : List UInt8}

theorem Moment.Reads.unclosed (reads : moment.Reads layout cursor bytes cursor') :
    moment.earlier.closeReason? = none := by
  obtain ⟨m₁, m₂, starts, -⟩ := reads
  exact starts.unclosed

theorem not_readFails_of_not_starts
    (never : ∀ {cursor m₁}, ¬moment.earlier.Starts layout moment.before cursor m₁) :
    ¬moment.ReadFails layout := by
  rintro ⟨-, cursor, m₁, cause, cursor', m₂, starts, -⟩
  exact never starts

theorem not_writeFails_of_not_starts
    (never : ∀ {cursor m₁}, ¬moment.earlier.Starts layout moment.before cursor m₁) :
    ¬moment.WriteFails layout := by
  rintro ⟨call, -, cursor, bytes, cursor', cause, o', ⟨m₁, m₂, starts, -⟩, -⟩
  exact never starts

theorem not_writeFails_of_unread {m₁ m₂ : Medium} {cause : IoError}
    (starts : moment.earlier.Starts layout moment.before cursor m₁)
    (unread : cursor.readChunk m₁ moment.earlier.chunkSize = (.error cause, cursor', m₂)) :
    ¬moment.WriteFails layout := by
  rintro ⟨call, -, cursor₁, bytes, cursor₂, cause', o', ⟨m₃, m₄, starts', read⟩, -⟩
  obtain ⟨rfl, rfl⟩ := starts.unique starts'
  rw [unread] at read
  cases read

theorem Moment.Reads.not_readFails (reads : moment.Reads layout cursor bytes cursor') :
    ¬moment.ReadFails layout := by
  obtain ⟨m₁, m₂, starts, read⟩ := reads
  rintro ⟨-, cursor₁, m₃, cause, cursor₂, m₄, starts', unread⟩
  obtain ⟨rfl, rfl⟩ := starts.unique starts'
  rw [read] at unread
  cases unread

/-- Where the output takes all that is read, no write fails. -/
theorem Moment.Reads.not_writeFails {call : Call} (called : moment.call? = some call)
    (reads : moment.Reads layout cursor bytes cursor')
    (written : (call.before.writeAll bytes).1 = .ok ()) : ¬moment.WriteFails layout := by
  obtain ⟨m₁, m₂, starts, read⟩ := reads
  rintro ⟨call', called', cursor₁, bytes', cursor₂, cause, o', ⟨m₃, m₄, starts', read'⟩, failed⟩
  obtain ⟨rfl, rfl⟩ := starts.unique starts'
  rw [called] at called'
  cases called'
  rw [read] at read'
  cases read'
  rw [failed] at written
  cases written

/-- Where nothing is read, nothing is written that could fail. -/
theorem Moment.Reads.not_writeFails_of_nil (reads : moment.Reads layout cursor [] cursor') :
    ¬moment.WriteFails layout := by
  rintro ⟨call, called, others⟩
  exact reads.not_writeFails called call.before.writeAll_nil ⟨call, called, others⟩

theorem written_of_call {call : Call} (called : moment.call? = some call)
    (taken : call.after.taken = call.before.taken ++ bytes) : moment.written = bytes := by
  rw [Moment.written, called, Option.map_some, Option.getD_some, Call.written, taken,
    List.drop_left]

theorem written_of_same {call : Call} (called : moment.call? = some call)
    (same : call.after.taken = call.before.taken) : moment.written = [] := by
  apply written_of_call called
  rw [same, List.append_nil]

end Failures

/-- Nothing is delivered.  If a read has failed, the stream ends. -/
structure Moment.DeliversNothing (layout : Layout) (moment : Moment) : Prop where
  written : moment.written = []
  data : moment.data? = none
  streamed : moment.stream.streamed = moment.earlier.streamed
  phase : moment.stream.phase = moment.earlier.phase ∨ moment.stream.closeReason?.isSome = true
  unrefused : ¬moment.WriteFails layout
  ends : moment.ReadFails layout →
    moment.earlier.closeReason? = none ∧ moment.stream.closeReason?.isSome = true

/-- The output takes the first `n` of the bytes that are read, and the stream ends. -/
structure Moment.DeliversPart (layout : Layout) (moment : Moment) (cursor cursor' : Cursor)
    (bytes : List UInt8) (n : Nat) : Prop where
  reads : moment.Reads layout cursor bytes cursor'
  within : n < bytes.length
  written : moment.written = bytes.take n
  data : moment.data? = none
  streamed : moment.stream.streamed = moment.earlier.streamed
  closed : moment.stream.closeReason?.isSome = true
  refused : moment.WriteFails layout

/-- The output takes the bytes that are read. -/
structure Moment.DeliversChunk (layout : Layout) (moment : Moment) (cursor cursor' : Cursor)
    (bytes : List UInt8) : Prop where
  reads : moment.Reads layout cursor bytes cursor'
  some_bytes : bytes ≠ []
  written : moment.written = bytes
  data : moment.data? = some bytes.length
  streamed : moment.stream.streamed = moment.earlier.streamed + bytes.length
  phase : moment.stream.phase = .streaming cursor'
  unrefused : ¬moment.WriteFails layout

/-- What a moment does to what has been delivered. -/
inductive Moment.Effect (layout : Layout) (moment : Moment) : Prop where
  | nothing (effect : moment.DeliversNothing layout)
  | part {cursor cursor' : Cursor} {bytes : List UInt8} {n : Nat}
      (effect : moment.DeliversPart layout cursor cursor' bytes n)
  | chunk {cursor cursor' : Cursor} {bytes : List UInt8}
      (effect : moment.DeliversChunk layout cursor cursor' bytes)

/-- Whatever way a call goes, it has one of the three effects. -/
theorem Course.effect {s s' : FullStream} {layout : Layout} {m m' : Medium} {o o' : Output}
    {answer : Except RestoreError ChunkResult} (course : s.Course layout m o answer s' m' o')
    (event : Event) :
    Moment.Effect layout
      { event, earlier := s, before := m, call? := some { answer, before := o, after := o' },
        stream := s', medium := m' } := by
  cases course with
  | closed phase =>
      rename_i reason
      have never : ∀ {cursor m₁}, ¬s.Starts layout m cursor m₁ := not_starts_of_closed phase
      refine .nothing ⟨written_of_same rfl rfl, ?_, rfl, Or.inl rfl,
        not_writeFails_of_not_starts never,
        fun failed => absurd failed (not_readFails_of_not_starts never)⟩
      cases reason <;> rfl
  | refused phase failed =>
      have never : ∀ {cursor m₁}, ¬s.Starts layout m cursor m₁ :=
        not_starts_of_refused phase failed
      exact .nothing ⟨written_of_same rfl rfl, rfl, rfl, Or.inr rfl,
        not_writeFails_of_not_starts never,
        fun failed => absurd failed (not_readFails_of_not_starts never)⟩
  | unread starts unread =>
      exact .nothing ⟨written_of_same rfl rfl, rfl, rfl, Or.inr rfl,
        not_writeFails_of_unread starts unread, fun _ => ⟨starts.unclosed, rfl⟩⟩
  | unflushed starts read flushed =>
      have kept := o.taken_flush
      rw [flushed] at kept
      exact .nothing ⟨written_of_same rfl kept, rfl, rfl, Or.inr rfl,
        Moment.Reads.not_writeFails_of_nil ⟨_, _, starts, read⟩,
        fun failed => absurd failed (Moment.Reads.not_readFails ⟨_, _, starts, read⟩)⟩
  | ended starts read flushed =>
      have kept := o.taken_flush
      rw [flushed] at kept
      exact .nothing ⟨written_of_same rfl kept, rfl, rfl, Or.inr rfl,
        Moment.Reads.not_writeFails_of_nil ⟨_, _, starts, read⟩,
        fun failed => absurd failed (Moment.Reads.not_readFails ⟨_, _, starts, read⟩)⟩
  | unwritten starts read some_bytes unwritten =>
      rename_i bytes cause
      rcases o.writeAll_cases bytes with ⟨o₁, eq, -⟩ | ⟨cause₁, o₁, n, eq, within, taken⟩ <;>
        rw [unwritten] at eq <;> cases eq
      exact .part ⟨⟨_, _, starts, read⟩, within, written_of_call rfl taken, rfl, rfl, rfl,
        ⟨_, rfl, _, _, _, _, _, ⟨_, _, starts, read⟩, unwritten⟩⟩
  | moved starts read some_bytes written =>
      have all := congrArg Prod.fst written
      have taken := Output.taken_writeAll all
      rw [written] at taken
      exact .chunk ⟨⟨_, _, starts, read⟩, some_bytes, written_of_call rfl taken, rfl, rfl, rfl,
        Moment.Reads.not_writeFails rfl ⟨_, _, starts, read⟩ all⟩

/-- Every event has one of the three effects. -/
theorem effect_perform (s : FullStream) (layout : Layout) (m : Medium) (event : Event) :
    (s.perform layout m event).Effect layout := by
  rcases s.perform_cases layout m event with
    ⟨o, answer, s', m', o', rfl, course, eq⟩ | ⟨m', rfl, eq⟩ | ⟨trouble, rfl, eq⟩ <;> rw [eq]
  · exact course.effect _
  · refine .nothing ⟨rfl, rfl, rfl, Or.inr rfl, ?_, ?_⟩
    · rintro ⟨call, called, -⟩
      cases called
    · rintro ⟨called, -⟩
      cases called
  · refine .nothing ⟨rfl, rfl, rfl, Or.inl rfl, ?_, ?_⟩
    · rintro ⟨call, called, -⟩
      cases called
    · rintro ⟨called, -⟩
      cases called

/-- An output keeps what it has taken. -/
theorem Course.appends {s s' : FullStream} {layout : Layout} {m m' : Medium} {o o' : Output}
    {answer : Except RestoreError ChunkResult} (course : s.Course layout m o answer s' m' o') :
    o.taken <+: o'.taken := by
  cases course with
  | closed phase => exact List.prefix_refl _
  | refused phase failed => exact List.prefix_refl _
  | unread starts read => exact List.prefix_refl _
  | unflushed starts read flushed =>
      have kept := o.taken_flush
      rw [flushed] at kept
      exact ⟨[], by rw [List.append_nil]; exact kept.symm⟩
  | ended starts read flushed =>
      have kept := o.taken_flush
      rw [flushed] at kept
      exact ⟨[], by rw [List.append_nil]; exact kept.symm⟩
  | unwritten starts read some_bytes written =>
      rename_i bytes cause
      rcases o.writeAll_cases bytes with ⟨o₁, eq, -⟩ | ⟨cause₁, o₁, n, eq, -, taken⟩ <;>
        rw [written] at eq <;> cases eq
      exact ⟨_, taken.symm⟩
  | moved starts read some_bytes written =>
      have taken := Output.taken_writeAll (congrArg Prod.fst written)
      rw [written] at taken
      exact ⟨_, taken.symm⟩

/-! ### What holds at every place of a run -/

/-- The package's stream is opened at `cursor`, on some medium that holds what `m` holds. -/
def OpensAt (package : String) (layout : Layout) (m : Medium) (cursor : Cursor) : Prop :=
  ∃ s m₁ m₂, s.package = package ∧ m₁.content = m.content ∧ m₁.reach = m.reach ∧
    openCursor s layout m₁ = (.ok cursor, m₂)

theorem OpensAt.begins {package : String} {layout : Layout} {m : Medium} {cursor : Cursor}
    (opens : OpensAt package layout m cursor) :
    ∃ c, m.content = .ok c ∧ cursor.Begins c m.reach (layout.streamPath package) := by
  obtain ⟨s, m₁, m₂, rfl, content, reach, opened⟩ := opens
  obtain ⟨c, holds, begins⟩ := openCursor_eq_ok opened
  rw [content] at holds
  rw [reach] at begins
  exact ⟨c, holds, begins⟩

theorem OpensAt.unique {package : String} {layout : Layout} {m : Medium}
    {cursor cursor' : Cursor} (one : OpensAt package layout m cursor)
    (other : OpensAt package layout m cursor') : cursor = cursor' := by
  obtain ⟨c, content, begins⟩ := one.begins
  obtain ⟨c', content', begins'⟩ := other.begins
  rw [content] at content'
  cases content'
  exact begins.unique begins'

theorem OpensAt.sane {package : String} {layout : Layout} {m : Medium} {cursor : Cursor}
    (opens : OpensAt package layout m cursor) : cursor.Sane := by
  obtain ⟨c, -, begins⟩ := opens.begins
  obtain ⟨-, -, -, rfl⟩ := begins
  unfold Zip.Entry.cursorAt
  split
  · exact trivial
  · exact ⟨rfl, Nat.zero_le _⟩

/-- There is one sequence of bytes that can be read wherever the stream of a package is opened. -/
theorem exists_payload (package : String) (layout : Layout) (m : Medium) :
    ∃ payload, ∀ cursor, OpensAt package layout m cursor → cursor.Whole payload := by
  by_cases opened : ∃ cursor, OpensAt package layout m cursor
  · obtain ⟨cursor, opens⟩ := opened
    obtain ⟨payload, whole⟩ := Cursor.exists_whole opens.sane
    refine ⟨payload, ?_⟩
    intro cursor' opens'
    rw [opens'.unique opens]
    exact whole
  · exact ⟨[], fun cursor opens => (opened ⟨cursor, opens⟩).elim⟩

/-- Where the data of the entry to which the package leads can be decoded to its end, the stream is
opened at a cursor from which just the entry's payload can be read. -/
theorem exists_opensAt_of_payload [Zip.Codecs] {package : String} {layout : Layout} {m : Medium}
    {c : Content} (content : m.content = .ok c) {e : Zip.Entry} {payload : List UInt8}
    (leads : e.Leads c m.reach (layout.streamPath package))
    (stands : e.payload c m.reach = .ok payload) :
    ∃ cursor, OpensAt package layout m cursor ∧ cursor.Whole payload := by
  let sound : Medium := { content := .ok c, reach := m.reach }
  have faultless : sound.Faultless c := { Medium.faultless_ofContent c with }
  obtain ⟨cursor, m', opened, -, -, -, holds⟩ :=
    openCursor_of_faultless faultless { package, chunkSize := 0 } layout leads stands
  exact ⟨cursor, ⟨_, sound, m', rfl, content.symm, rfl, opened⟩, Cursor.whole_of_holds holds⟩

/-- How what the outputs have taken stands to what has been reported. -/
inductive Balance (layout : Layout) (size : Nat) (past : List Moment) (s : FullStream) : Prop where
  | even (taken : (takenOf past).length = s.streamed)
      (unrefused : ∀ moment ∈ past, ¬moment.WriteFails layout)
  | ahead (closed : s.closeReason?.isSome = true) (least : s.streamed ≤ (takenOf past).length)
      (most : (takenOf past).length < s.streamed + size)
      (refused : ∃ moment ∈ past, moment.WriteFails layout)
      (unfailed : ∀ moment ∈ past, ¬moment.ReadFails layout)

/-- With the moments `past`, the package's stream has come from its beginning to `s`, where
`payload` is what can be read of it in the archive that `m` holds. -/
structure Traced (package : String) (layout : Layout) (m : Medium) (payload : List UInt8)
    (past : List Moment) (s : FullStream) : Prop where
  counted : s.streamed = (dataOf past).sum
  begins : takenOf past <+: payload
  balance : Balance layout s.chunkSize past s
  pulls : 0 < s.chunkSize → (dataOf past).length = chunkCount s.streamed s.chunkSize
  unfailed : s.closeReason? = none →
    ∀ moment ∈ past, ¬moment.ReadFails layout ∧ ¬moment.WriteFails layout
  unopened : s.phase = .notStarted → takenOf past = [] ∧ dataOf past = []
  /-- An open stream has delivered what its cursor has given, in full chunks until nothing is
  left. -/
  held : ∀ cursor, s.phase = .streaming cursor → ∃ first, OpensAt package layout m first ∧
    first.Yields (takenOf past) cursor ∧
    (0 < s.chunkSize → cursor.remainder ≠ [] → s.streamed = (dataOf past).length * s.chunkSize)

/-- A moment in a run of the package's stream, in front of which the archive is the one that `m`
holds. -/
structure Moment.Within (package : String) (m : Medium) (moment : Moment) : Prop where
  package : moment.earlier.package = package
  content : moment.before.content = m.content
  reach : moment.before.reach = m.reach
  chunkSize : moment.stream.chunkSize = moment.earlier.chunkSize

section Steps

variable {package : String} {layout : Layout} {m : Medium} {payload : List UInt8}
  {past : List Moment} {moment : Moment} {cursor cursor' : Cursor} {bytes : List UInt8}

theorem closeReason?_congr {s s' : FullStream} (phase : s.phase = s'.phase) :
    s.closeReason? = s'.closeReason? := by
  unfold closeReason?
  rw [phase]

/-- A stream that delivers nothing and is still open goes on as it was. -/
theorem Moment.DeliversNothing.phase_of_unclosed (effect : moment.DeliversNothing layout)
    (unclosed : moment.stream.closeReason? = none) :
    moment.stream.phase = moment.earlier.phase := by
  rcases effect.phase with same | closed
  · exact same
  · rw [unclosed] at closed
    cases closed

/-- A stream that delivers nothing does not open again. -/
theorem Moment.DeliversNothing.stays_closed (effect : moment.DeliversNothing layout)
    (closed : moment.earlier.closeReason?.isSome = true) :
    moment.stream.closeReason?.isSome = true := by
  rcases effect.phase with same | ended
  · rw [closeReason?_congr same]
    exact closed
  · exact ended

theorem Moment.DeliversNothing.takenOf_concat (effect : moment.DeliversNothing layout)
    (past : List Moment) : takenOf (past ++ [moment]) = takenOf past := by
  rw [takenOf_append, effect.written, List.append_nil]

theorem dataOf_of_no_data (none_reported : moment.data? = none) (past : List Moment) :
    dataOf (past ++ [moment]) = dataOf past := by
  rw [dataOf_append, none_reported, Option.toList_none, List.append_nil]

theorem Balance.nothing {size : Nat} (balance : Balance layout size past moment.earlier)
    (effect : moment.DeliversNothing layout) :
    Balance layout size (past ++ [moment]) moment.stream := by
  have same_taken := effect.takenOf_concat past
  have streamed := effect.streamed
  cases balance with
  | even taken unrefused =>
      refine .even ?_ (forall_mem_concat unrefused effect.unrefused)
      rw [same_taken, streamed, taken]
  | ahead closed least most refused unfailed =>
      have still_unfailed : ¬moment.ReadFails layout := by
        intro failed
        rw [(effect.ends failed).1] at closed
        cases closed
      refine .ahead (effect.stays_closed closed) ?_ ?_ ?_
        (forall_mem_concat unfailed still_unfailed)
      · rw [same_taken, streamed]
        exact least
      · rw [same_taken, streamed]
        exact most
      · obtain ⟨other, member, failed⟩ := refused
        exact ⟨other, List.mem_append_left _ member, failed⟩

theorem Traced.nothing (traced : Traced package layout m payload past moment.earlier)
    (within : moment.Within package m) (effect : moment.DeliversNothing layout) :
    Traced package layout m payload (past ++ [moment]) moment.stream := by
  have size := within.chunkSize
  have streamed := effect.streamed
  have same_taken := effect.takenOf_concat past
  have same_data := dataOf_of_no_data effect.data past
  refine ⟨?_, ?_, ?_, ?_, ?_, ?_, ?_⟩
  · rw [same_data, streamed, traced.counted]
  · rw [same_taken]
    exact traced.begins
  · rw [size]
    exact traced.balance.nothing effect
  · rw [same_data, streamed, size]
    exact traced.pulls
  · intro unclosed
    have open_before := closeReason?_congr (effect.phase_of_unclosed unclosed) ▸ unclosed
    refine forall_mem_concat (traced.unfailed open_before) ⟨?_, effect.unrefused⟩
    intro failed
    have closed := (effect.ends failed).2
    rw [unclosed] at closed
    cases closed
  · intro unopened
    have unclosed : moment.stream.closeReason? = none := by rw [closeReason?, unopened]
    rw [same_taken, same_data]
    exact traced.unopened (effect.phase_of_unclosed unclosed ▸ unopened)
  · intro cursor held
    have unclosed : moment.stream.closeReason? = none := by rw [closeReason?, held]
    rw [same_taken, same_data, streamed, size]
    exact traced.held cursor (effect.phase_of_unclosed unclosed ▸ held)

/-- While a chunk can be read, all that has been read has been taken and reported. -/
theorem Traced.even (traced : Traced package layout m payload past moment.earlier)
    (unclosed : moment.earlier.closeReason? = none) :
    (takenOf past).length = moment.earlier.streamed := by
  rcases traced.balance with ⟨taken, -⟩ | ⟨closed, -⟩
  · exact taken
  · rw [unclosed] at closed
    cases closed

/-- A chunk that is read is the beginning of what is left behind what has been taken. -/
theorem Traced.reads (traced : Traced package layout m payload past moment.earlier)
    (within : moment.Within package m)
    (whole : ∀ first, OpensAt package layout m first → first.Whole payload)
    (reads : moment.Reads layout cursor bytes cursor') :
    ∃ first, OpensAt package layout m first ∧ first.Yields (takenOf past ++ bytes) cursor' ∧
      takenOf past ++ bytes <+: payload ∧
      bytes = cursor.remainder.take moment.earlier.chunkSize ∧
      cursor'.remainder = cursor.remainder.drop moment.earlier.chunkSize ∧
      (0 < moment.earlier.chunkSize → cursor.remainder ≠ [] →
        moment.earlier.streamed = (dataOf past).length * moment.earlier.chunkSize) := by
  obtain ⟨m₁, m₂, starts, read⟩ := reads
  obtain ⟨first, opens, yields, full⟩ : ∃ first, OpensAt package layout m first ∧
      first.Yields (takenOf past) cursor ∧ (0 < moment.earlier.chunkSize → cursor.remainder ≠ [] →
        moment.earlier.streamed = (dataOf past).length * moment.earlier.chunkSize) := by
    cases starts with
    | held phase => exact traced.held cursor phase
    | opened phase found =>
        obtain ⟨none_taken, none_reported⟩ := traced.unopened phase
        refine ⟨cursor, ⟨_, _, _, within.package, within.content, within.reach, found⟩, ?_, ?_⟩
        · rw [none_taken]
          exact .nothing
        · intro _ _
          rw [traced.counted, none_reported, List.sum_nil, List.length_nil, Nat.zero_mul]
  obtain ⟨sane, -⟩ := yields.append_remainder opens.sane
  obtain ⟨-, bytes_eq, behind⟩ := Cursor.readChunk_eq_ok sane read
  have yields' := yields.more read
  exact ⟨first, opens, yields', (whole first opens).longest _ _ yields', bytes_eq, behind, full⟩

theorem Traced.part {n : Nat} (traced : Traced package layout m payload past moment.earlier)
    (within : moment.Within package m)
    (whole : ∀ first, OpensAt package layout m first → first.Whole payload)
    (effect : moment.DeliversPart layout cursor cursor' bytes n) :
    Traced package layout m payload (past ++ [moment]) moment.stream := by
  have unclosed := effect.reads.unclosed
  obtain ⟨first, -, -, begins, bytes_eq, -⟩ := traced.reads within whole effect.reads
  have short : bytes.length ≤ moment.earlier.chunkSize := by
    rw [bytes_eq]
    exact List.length_take_le _ _
  have partial_chunk := effect.within
  have streamed := effect.streamed
  have size := within.chunkSize
  have same_data := dataOf_of_no_data effect.data past
  have more_taken : takenOf (past ++ [moment]) = takenOf past ++ bytes.take n := by
    rw [takenOf_append, effect.written]
  have amount : (takenOf (past ++ [moment])).length = moment.stream.streamed + n := by
    rw [more_taken, List.length_append, traced.even unclosed, streamed, List.length_take,
      Nat.min_eq_left (Nat.le_of_lt effect.within)]
  obtain ⟨reason, ended⟩ := Option.isSome_iff_exists.1 effect.closed
  have phase := closeReason?_eq_some.1 ended
  refine ⟨?_, ?_, ?_, ?_, ?_, ?_, ?_⟩
  · rw [same_data, streamed, traced.counted]
  · rw [more_taken]
    exact ((List.prefix_append_right_inj _).2 (List.take_prefix n bytes)).trans begins
  · refine .ahead effect.closed ?_ ?_ ⟨moment, by simp, effect.refused⟩
      (forall_mem_concat (fun other member => (traced.unfailed unclosed other member).1)
        effect.reads.not_readFails)
    · omega
    · omega
  · rw [same_data, streamed, size]
    exact traced.pulls
  · intro unclosed
    rw [ended] at unclosed
    cases unclosed
  · intro unopened
    rw [phase] at unopened
    cases unopened
  · intro cursor held
    rw [phase] at held
    cases held

theorem Traced.chunk (traced : Traced package layout m payload past moment.earlier)
    (within : moment.Within package m)
    (whole : ∀ first, OpensAt package layout m first → first.Whole payload)
    (effect : moment.DeliversChunk layout cursor cursor' bytes) :
    Traced package layout m payload (past ++ [moment]) moment.stream := by
  have unclosed := effect.reads.unclosed
  obtain ⟨first, opens, yields, begins, bytes_eq, behind, full⟩ :=
    traced.reads within whole effect.reads
  have streamed := effect.streamed
  have size := within.chunkSize
  have some_left : cursor.remainder ≠ [] := by
    intro nothing
    rw [nothing, List.take_nil] at bytes_eq
    exact effect.some_bytes bytes_eq
  have positive : 0 < bytes.length := List.length_pos_iff.2 effect.some_bytes
  have length : bytes.length = min moment.earlier.chunkSize cursor.remainder.length := by
    rw [bytes_eq, List.length_take]
  have more_data : dataOf (past ++ [moment]) = dataOf past ++ [bytes.length] := by
    rw [dataOf_append, effect.data, Option.toList_some]
  have more_taken : takenOf (past ++ [moment]) = takenOf past ++ bytes := by
    rw [takenOf_append, effect.written]
  have past_unfailed := traced.unfailed unclosed
  refine ⟨?_, ?_, ?_, ?_, ?_, ?_, ?_⟩
  · rw [more_data, List.sum_append, List.sum_singleton, streamed, traced.counted]
  · rw [more_taken]
    exact begins
  · refine .even ?_ (forall_mem_concat (fun other member => (past_unfailed other member).2)
      effect.unrefused)
    rw [more_taken, List.length_append, traced.even unclosed, streamed]
  · intro some_size
    rw [size] at some_size ⊢
    rw [more_data, List.length_append, List.length_singleton, streamed, full some_size some_left,
      chunkCount_mul_add positive (length ▸ Nat.min_le_left _ _)]
  · intro _
    exact forall_mem_concat past_unfailed ⟨effect.reads.not_readFails, effect.unrefused⟩
  · intro unopened
    rw [effect.phase] at unopened
    cases unopened
  · intro cursor'' held
    rw [effect.phase] at held
    cases held
    refine ⟨first, opens, more_taken ▸ yields, ?_⟩
    intro some_size more_left
    rw [size] at some_size ⊢
    -- Where something is left behind a chunk, the chunk was a full one.
    have beyond : moment.earlier.chunkSize < cursor.remainder.length := by
      rw [behind] at more_left
      exact Nat.lt_of_not_le fun all => more_left (List.drop_of_length_le all)
    rw [more_data, List.length_append, List.length_singleton, streamed, full some_size some_left,
      length, Nat.min_eq_left (Nat.le_of_lt beyond), Nat.succ_mul]

theorem Traced.step (traced : Traced package layout m payload past moment.earlier)
    (within : moment.Within package m)
    (whole : ∀ first, OpensAt package layout m first → first.Whole payload)
    (effect : moment.Effect layout) :
    Traced package layout m payload (past ++ [moment]) moment.stream := by
  cases effect with
  | nothing effect => exact traced.nothing within effect
  | part effect => exact traced.part within whole effect
  | chunk effect => exact traced.chunk within whole effect

end Steps

/-! ### Whole runs -/

/-- What the outputs have taken in a run is a beginning of the bytes that the stream can give,
and the reports say how much of it has been delivered. -/
structure DeliversBeginning (layout : Layout) (payload : List UInt8) (size : Nat)
    (h : History) : Prop where
  /-- No output loses what it has taken. -/
  appended : ∀ moment ∈ h.moments, ∀ call ∈ moment.call?, call.before.taken <+: call.after.taken
  counted : h.stream.streamed = (dataOf h.moments).sum
  begins : takenOf h.moments <+: payload
  least : h.stream.streamed ≤ (takenOf h.moments).length
  exact : (∀ moment ∈ h.moments, ¬moment.WriteFails layout) →
    (takenOf h.moments).length = h.stream.streamed
  /-- If a write has failed, the outputs have less than one chunk more. -/
  excess : (∃ moment ∈ h.moments, moment.WriteFails layout) →
    (takenOf h.moments).length < h.stream.streamed + size
  /-- If a read has failed, what had been read of its chunk is never delivered. -/
  discarded : (∃ moment ∈ h.moments, moment.ReadFails layout) →
    (takenOf h.moments).length = h.stream.streamed
  pulls : 0 < size → (dataOf h.moments).length ≤ chunkCount payload.length size
  /-- So calls can all report data only as long as there are chunks. -/
  ends : 0 < size → (∀ moment ∈ h.moments, moment.data?.isSome = true) →
    h.moments.length ≤ chunkCount payload.length size

theorem Balance.amounts {layout : Layout} {size : Nat} {past : List Moment} {s : FullStream}
    (balance : Balance layout size past s) :
    s.streamed ≤ (takenOf past).length ∧
    ((∀ moment ∈ past, ¬moment.WriteFails layout) → (takenOf past).length = s.streamed) ∧
    ((∃ moment ∈ past, moment.WriteFails layout) → (takenOf past).length < s.streamed + size) ∧
    ((∃ moment ∈ past, moment.ReadFails layout) → (takenOf past).length = s.streamed) := by
  cases balance with
  | even taken unrefused =>
      refine ⟨Nat.le_of_eq taken.symm, fun _ => taken, ?_, fun _ => taken⟩
      rintro ⟨moment, member, refused⟩
      exact absurd refused (unrefused moment member)
  | ahead closed least most refused unfailed =>
      refine ⟨least, ?_, fun _ => most, ?_⟩
      · intro unrefused
        obtain ⟨moment, member, failed⟩ := refused
        exact absurd failed (unrefused moment member)
      · rintro ⟨moment, member, failed⟩
        exact absurd failed (unfailed moment member)

/-- No event changes what the archive holds. -/
theorem archive_perform (s : FullStream) (layout : Layout) (m : Medium) (event : Event) :
    (s.perform layout m event).medium.content = m.content ∧
      (s.perform layout m event).medium.reach = m.reach := by
  cases event with
  | nextChunk o =>
      have leads := s.leadsTo_nextChunk layout m o
      exact ⟨leads.content, leads.reach⟩
  | abort =>
      have leads := s.leadsTo_abort m
      exact ⟨leads.content, leads.reach⟩
  | plan trouble => exact ⟨rfl, rfl⟩

/-- A stream that has not begun has delivered nothing. -/
theorem traced_nil (package : String) (size : Nat) (layout : Layout) (m : Medium)
    (payload : List UInt8) :
    Traced package layout m payload [] { package, chunkSize := size } := by
  refine ⟨rfl, List.nil_prefix, .even rfl ?_, ?_, ?_, fun _ => ⟨rfl, rfl⟩, ?_⟩
  · intro moment member
    cases member
  · intro some_size
    have none_needed : chunkCount 0 size = 0 := by
      rw [chunkCount, Nat.zero_add]
      exact Nat.div_eq_of_lt (Nat.sub_lt some_size Nat.one_pos)
    exact none_needed.symm
  · intro _ moment member
    cases member
  · intro cursor held
    cases held

theorem Traced.run (package : String) (size : Nat) {layout : Layout} {m : Medium}
    {payload : List UInt8}
    (whole : ∀ first, OpensAt package layout m first → first.Whole payload)
    (events : List Event) :
    Traced package layout m payload
        (({ package, chunkSize := size } : FullStream).run layout m events).moments
        (({ package, chunkSize := size } : FullStream).run layout m events).stream ∧
      (({ package, chunkSize := size } : FullStream).run layout m events).stream.chunkSize =
        size := by
  have kept := run_induction { package, chunkSize := size } layout m
    (fun past s m' => Traced package layout m payload past s ∧ s.package = package ∧
      s.chunkSize = size ∧ m'.content = m.content ∧ m'.reach = m.reach)
    ⟨traced_nil package size layout m payload, rfl, rfl, rfl, rfl⟩ ?_ events
  · exact ⟨kept.1, kept.2.2.1⟩
  · rintro past s m' event ⟨traced, named, sized, content, reach⟩
    obtain ⟨same_package, same_size⟩ := s.keeps_perform layout m' event
    obtain ⟨same_content, same_reach⟩ := s.archive_perform layout m' event
    obtain ⟨earlier, before⟩ := s.perform_begins layout m' event
    have within : (s.perform layout m' event).Within package m := by
      refine ⟨?_, ?_, ?_, ?_⟩
      · rw [earlier, named]
      · rw [before, content]
      · rw [before, reach]
      · rw [earlier, same_size]
    refine ⟨?_, same_package.trans named, same_size.trans sized, same_content.trans content,
      same_reach.trans reach⟩
    rw [← earlier] at traced
    exact traced.step within whole (s.effect_perform layout m' event)

theorem length_le_dataOf {moments : List Moment}
    (all : ∀ moment ∈ moments, moment.data?.isSome = true) :
    moments.length ≤ (dataOf moments).length := by
  rw [dataOf, List.length_filterMap_eq_countP, List.countP_eq_length.2 all]

/-- If `payload` is what can be read where the stream of a package is opened, every run delivers a
beginning of it. -/
theorem deliversBeginning_of_whole {package : String} {layout : Layout} {m : Medium}
    {payload : List UInt8}
    (whole : ∀ cursor, OpensAt package layout m cursor → cursor.Whole payload) (size : Nat)
    (events : List Event) :
    DeliversBeginning layout payload size
      (({ package, chunkSize := size } : FullStream).run layout m events) := by
  obtain ⟨traced, sized⟩ := Traced.run package size whole events
  obtain ⟨least, exact, excess, discarded⟩ := traced.balance.amounts
  rw [sized] at excess
  have pulls : 0 < size →
      (dataOf (({ package, chunkSize := size } : FullStream).run layout m events).moments).length ≤
        chunkCount payload.length size := by
    intro some_size
    have counted := traced.pulls
    rw [sized] at counted
    rw [counted some_size]
    exact chunkCount_mono size (Nat.le_trans least traced.begins.length_le)
  refine ⟨?_, traced.counted, traced.begins, least, exact, excess, discarded, pulls, ?_⟩
  · refine forall_run (fun _ => True) trivial ?_ events
    intro s m event _
    refine ⟨?_, trivial⟩
    rcases s.perform_cases layout m event with
      ⟨o, answer, s', m', o', rfl, course, eq⟩ | ⟨m', rfl, eq⟩ | ⟨trouble, rfl, eq⟩ <;>
      rw [eq] <;> intro call called <;> cases called
    exact course.appends
  · intro some_size all
    exact Nat.le_trans (length_le_dataOf all) (pulls some_size)

/-- Whatever is called, and whatever fails, what reaches the outputs of a package's stream is a
beginning of the bytes that can be read where it is opened, and no call leaves a gap.  These bytes
are the payload of the entry to which the package leads, if its data can be decoded to its end. -/
theorem run_delivers_beginning [Zip.Codecs] (package : String) (size : Nat) (layout : Layout)
    (m : Medium) :
    ∃ payload, (∀ cursor, OpensAt package layout m cursor → cursor.Whole payload) ∧
      (∀ (c : Content) (e : Zip.Entry) (value : List UInt8), m.content = .ok c →
        e.Leads c m.reach (layout.streamPath package) → e.payload c m.reach = .ok value →
          payload = value) ∧
      ∀ events, DeliversBeginning layout payload size
        (({ package, chunkSize := size } : FullStream).run layout m events) := by
  obtain ⟨payload, whole⟩ := exists_payload package layout m
  refine ⟨payload, whole, ?_, deliversBeginning_of_whole whole size⟩
  intro c e value content leads stands
  obtain ⟨cursor, opens, decoded⟩ := exists_opensAt_of_payload content leads stands
  exact (whole cursor opens).unique decoded

end FullStream
end BackupRestore
