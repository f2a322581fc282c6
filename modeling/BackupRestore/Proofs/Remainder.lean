/-
Module: BackupRestore.Proofs.Remainder
Purpose: What is left of a payload at a cursor, and what a chunk takes of it on any medium.
Main exports: Cursor.Inflow.outcome, Cursor.Inflow.Hands, Cursor.Inflow.fetch_of_sound,
  Cursor.Inflow.hands_readChunk, Cursor.remainder, Cursor.Sane, Cursor.readChunk_eq_ok,
  Cursor.Yields, Cursor.Whole, Cursor.exists_whole
-/
import BackupRestore.Proofs.Inflation
import BackupRestore.Proofs.Reading
import BackupRestore.Payload
import Mathlib.Data.Nat.Find

namespace BackupRestore.Cursor

/-!
What is left at a cursor can be told before it is read.  Of stored data it is what is upcoming at
the handle.  Of compressed data, some bytes may be decoded and wait for delivery, and others may
have been fetched and not been decoded: what is left is told by the end to which the inflater
leads when all that is still to come is fed to it, without the bytes that have been delivered.
Fetching and decoding leave it as it is, and delivering takes its beginning.  So a chunk that is
read is the beginning of what is left, however the medium has answered, and whether or not the
data that is behind it can be read or decoded.
-/

/-! ### Compressed data -/

namespace Inflow

/-- The bytes to which everything leads that has been and is still to be fetched, and how
decoding ends there. -/
def outcome (f : Inflow) : List UInt8 × Deflate.Stop :=
  (f.inflater.feed (f.handle.upcoming f.limit)).outcome

/-- The bytes that are still to be delivered. -/
def remainder (f : Inflow) : List UInt8 := f.outcome.1.drop f.inflater.delivered

/-- The inflow `f'` is `f` after the delivery of `bytes`: the next `n` of those that are left, or
all if there are fewer. -/
structure Hands (f : Inflow) (n : Nat) (bytes : List UInt8) (f' : Inflow) : Prop where
  sane : f'.inflater.Sane
  outcome : f'.outcome = f.outcome
  bytes : bytes = f.remainder.take n
  remainder : f'.remainder = f.remainder.drop n

variable {f f' f'' : Inflow} {m m' : Medium} {n : Nat} {bytes : List UInt8}

theorem Hands.refl (sane : f.inflater.Sane) : f.Hands 0 [] f := ⟨sane, rfl, rfl, rfl⟩

/-- An inflow that leads to the same end, with as much delivered, has the same bytes left. -/
theorem hands_nothing (sane : f'.inflater.Sane) (outcome : f'.outcome = f.outcome)
    (delivered : f'.inflater.delivered = f.inflater.delivered) : f.Hands 0 [] f' := by
  refine ⟨sane, outcome, rfl, ?_⟩
  rw [remainder, remainder, outcome, delivered, List.drop_zero]

theorem Hands.after (before : f.Hands 0 [] f') (hands : f'.Hands n bytes f'') :
    f.Hands n bytes f'' := by
  have same : f'.remainder = f.remainder := before.remainder
  exact ⟨hands.sane, hands.outcome.trans before.outcome, same ▸ hands.bytes,
    same ▸ hands.remainder⟩

theorem Hands.andThen (hands : f.Hands n bytes f') (behind : f'.Hands 0 [] f'') :
    f.Hands n bytes f'' :=
  ⟨behind.sane, behind.outcome.trans hands.outcome, hands.bytes,
    behind.remainder.trans hands.remainder⟩

/-- Decoding delivers nothing. -/
theorem hands_decode (sane : f.inflater.Sane) {inflater : Deflate.Inflater}
    (reaches : f.inflater.Reaches inflater) : f.Hands 0 [] { f with inflater } :=
  hands_nothing (reaches.sane sane) (reaches.outcome _) reaches.delivered

/-- No compressed bytes are still to come. -/
def Spent (f : Inflow) : Prop := f.handle.upcoming f.limit = []

theorem spent_iff : f.Spent ↔ min f.limit f.handle.available = 0 := by
  rw [Spent, ← List.length_eq_zero_iff, Medium.length_upcoming]

/-- Where no read fails, a fetch brings some compressed bytes, and none only if none are to come. -/
theorem fetch_of_sound (f : Inflow) (sound : m.delivery.Sound) :
    ∃ k f' m', f.fetch m = (.ok k, f', m') ∧ m'.delivery.Sound ∧
      (∃ bytes, f'.inflater = f.inflater.feed bytes) ∧ (k = 0 ↔ f.Spent) ∧ (k = 0 → f' = f) := by
  unfold fetch
  by_cases none_left : f.limit = 0
  · rw [if_pos none_left, spent_iff, none_left, Nat.zero_min]
    exact ⟨0, f, m, rfl, sound, ⟨[], f.inflater.feed_nil.symm⟩, Iff.rfl, fun _ => rfl⟩
  · rw [if_neg none_left]
    obtain ⟨n, d, sound', asked, left, some_come, read⟩ :=
      Medium.read_of_sound sound f.handle (min f.limit fetchSize)
    have count : (f.handle.upcoming n).length = n := by
      rw [Medium.length_upcoming, Nat.min_eq_left left]
    have within : n ≤ f.limit := Nat.le_trans asked (Nat.min_le_left _ _)
    have some_asked : 0 < min f.limit fetchSize := by
      simp only [fetchSize]
      omega
    simp only [read, count, Nat.min_eq_left within]
    refine ⟨n, _, _, rfl, sound', ⟨_, rfl⟩, ?_, ?_⟩
    · rw [spent_iff]
      omega
    · rintro rfl
      rw [Handle.upcoming_zero, Deflate.Inflater.feed_nil]
      rfl

/-- Fetching delivers nothing. -/
theorem hands_fetch (sane : f.inflater.Sane) {k : Nat} (fetched : f.fetch m = (.ok k, f', m')) :
    f.Hands 0 [] f' := by
  unfold fetch at fetched
  split at fetched
  · cases fetched
    exact .refl sane
  · split at fetched
    · cases fetched
    · rename_i came handle m₁ read
      cases fetched
      refine hands_nothing (sane.feed _) ?_ rfl
      unfold Medium.read at read
      split at read
      · rename_i count d answered
        cases read
        have bounds := Delivery.readOn_le answered
        have length : (f.handle.upcoming count).length = count := by
          rw [Medium.length_upcoming, Nat.min_eq_left bounds.2]
        have within : count ≤ f.limit := Nat.le_trans bounds.1 (Nat.min_le_left _ _)
        simp only [outcome, length]
        rw [← Deflate.Inflater.feed_append, ← Handle.upcoming_add, Nat.add_sub_cancel' within]
      · cases read

/-- The bytes that wait for delivery are the next ones. -/
theorem waiting_prefix (sane : f.inflater.Sane) :
    f.inflater.decoded.drop f.inflater.delivered <+: f.remainder := by
  obtain ⟨later, whole⟩ : f.inflater.decoded <+: f.outcome.1 :=
    Deflate.Inflater.decoded_prefix_outcome (sane.feed (f.handle.upcoming f.limit))
  have delivered_le : f.inflater.delivered ≤ f.inflater.decoded.length := by
    rw [f.inflater.length_decoded]
    exact Nat.sub_le _ _
  refine ⟨later, ?_⟩
  rw [remainder, ← whole, List.drop_append_of_le_length delivered_le]

theorem length_waiting (sane : f.inflater.Sane) :
    (f.inflater.decoded.drop f.inflater.delivered).length = f.inflater.waiting := by
  have within := sane.waiting
  rw [List.length_drop, f.inflater.length_decoded, Deflate.Inflater.delivered]
  omega

theorem length_deliver (sane : f.inflater.Sane) (n : Nat) :
    (f.deliver n).1.length = min n f.inflater.waiting := by
  have bytes : (f.deliver n).1 =
      (f.inflater.decoded.drop f.inflater.delivered).take (min n f.inflater.waiting) :=
    Deflate.Inflater.deliver_eq sane n
  rw [bytes, List.length_take, length_waiting sane]
  omega

/-- What is delivered is the beginning of what is left, as far as it waits. -/
theorem hands_deliver (sane : f.inflater.Sane) (n : Nat) :
    f.Hands (min n f.inflater.waiting) (f.deliver n).1 (f.deliver n).2 := by
  have outcome : (f.deliver n).2.outcome = f.outcome := f.inflater.outcome_feed_deliver n _
  refine ⟨sane.deliver n, outcome, ?_, ?_⟩
  · obtain ⟨later, split⟩ := waiting_prefix sane
    have within : min n f.inflater.waiting ≤
        (f.inflater.decoded.drop f.inflater.delivered).length := by
      rw [length_waiting sane]
      exact Nat.min_le_right _ _
    rw [← split, List.take_append_of_le_length within]
    exact Deflate.Inflater.deliver_eq sane n
  · rw [remainder, outcome, remainder, List.drop_drop]
    exact congrArg f.outcome.1.drop (Deflate.Inflater.delivered_deliver sane n)

/-- Once as many bytes wait as are asked for, or all that are left, a chunk is delivered. -/
theorem hands_deliver_of_enough (sane : f.inflater.Sane)
    (enough : n ≤ f.inflater.waiting ∨ f.remainder.length = f.inflater.waiting) :
    f.Hands n (f.deliver n).1 (f.deliver n).2 := by
  have hands := hands_deliver sane n
  have take_min : f.remainder.take (min n f.inflater.waiting) = f.remainder.take n := by
    rcases enough with wanted | all
    · rw [Nat.min_eq_left wanted]
    · rw [← all, ← List.take_take, List.take_length]
  have drop_min : f.remainder.drop (min n f.inflater.waiting) = f.remainder.drop n := by
    apply List.append_cancel_left
    rw [List.take_append_drop n f.remainder, ← take_min, List.take_append_drop]
  exact ⟨hands.sane, hands.outcome, hands.bytes.trans take_min,
    hands.remainder.trans drop_min⟩

/-- At the end of the data, all that is left waits. -/
theorem length_of_finished (sane : f.inflater.Sane)
    (finished : f.inflater.step.stop? = some .finished) :
    f.remainder.length = f.inflater.waiting := by
  have ends : f.outcome = (f.inflater.decoded, .finished) :=
    Deflate.Inflater.outcome_feed_of_stop finished (by simp) _
  rw [remainder, ends]
  exact length_waiting sane

theorem hands_deliverLast (sane : f.inflater.Sane) {before : Nat}
    (all : f.remainder.length = f.inflater.waiting)
    (given : f.deliverLast m before n = (.ok bytes, f', m')) : f.Hands n bytes f' := by
  have hands := hands_deliver_of_enough (n := n) sane (Or.inr all)
  unfold deliverLast at given
  generalize f.deliver n = delivered at given hands
  obtain ⟨got, next⟩ := delivered
  simp only at given hands
  split at given
  · split at given
    · cases given
    · rename_i fetched
      cases given
      exact hands.andThen (hands_fetch hands.sane fetched)
  · cases given
    exact hands

/-- Decoding and fetching in turn gives a chunk, if it gives anything.  Every fetch leaves less
to fetch. -/
theorem hands_fill (sane : f.inflater.Sane) {before : Nat}
    (given : f.fill m before n = (.ok bytes, f', m')) : f.Hands n bytes f' := by
  induction left : f.limit using Nat.strongRecOn generalizing m f before with
  | _ limit ih =>
      obtain ⟨reaches, stops⟩ := Deflate.Inflater.reaches_run sane n
      rw [Inflow.fill] at given
      generalize f.inflater.run n = ran at reaches stops given
      obtain ⟨inflater, stop⟩ := ran
      have decoded := hands_decode sane reaches
      cases stop with
      | enough =>
          cases given
          exact decoded.after (hands_deliver_of_enough decoded.sane (Or.inl stops))
      | finished =>
          have all := length_of_finished decoded.sane stops
          exact decoded.after (hands_deliverLast decoded.sane all given)
      | corrupt => cases given
      | starved =>
          simp only at given
          split at given
          · cases given
          · cases given
          · rename_i k next m₁ fetched
            have shorter := Inflow.limit_fetch fetched
            have kept := decoded.after (hands_fetch decoded.sane fetched)
            refine kept.after (ih next.limit ?_ kept.sane given rfl)
            simp only at shorter
            omega

/-- A chunk that is read is the beginning of what is left. -/
theorem hands_readChunk (sane : f.inflater.Sane)
    (given : f.readChunk m n = (.ok bytes, f', m')) : f.Hands n bytes f' := by
  unfold Inflow.readChunk at given
  split at given
  · rename_i nothing
    subst nothing
    cases given
    exact .refl sane
  · split at given
    · split at given
      · cases given
      · rename_i fetched
        have kept := hands_fetch sane fetched
        exact kept.after (hands_fill kept.sane given)
    · exact hands_fill sane given

end Inflow

/-! ### Data of either kind -/

/-- The bytes that are still to be delivered. -/
def remainder : Cursor → List UInt8
  | stored handle limit => handle.upcoming limit
  | deflated handle limit inflater => Inflow.remainder { handle, limit, inflater }

/-- No more bytes wait for delivery than have been decoded. -/
def Sane : Cursor → Prop
  | stored _ _ => True
  | deflated _ _ inflater => inflater.Sane

/-- A chunk that is read is the beginning of what is left, and leaves the rest, however the
medium has answered. -/
theorem readChunk_eq_ok {c c' : Cursor} {m m' : Medium} {n : Nat} {bytes : List UInt8}
    (sane : c.Sane) (read : c.readChunk m n = (.ok bytes, c', m')) :
    c'.Sane ∧ bytes = c.remainder.take n ∧ c'.remainder = c.remainder.drop n := by
  cases c with
  | stored handle limit =>
      simp only [readChunk] at read
      split at read
      · cases read
      · rename_i got handle' m₁ filled
        obtain ⟨rfl, rfl⟩ := Medium.fill_of_none filled
        cases read
        refine ⟨trivial, (handle.upcoming_take limit n).symm, ?_⟩
        simp only [remainder, Medium.length_upcoming]
        exact (handle.upcoming_drop limit n).symm
  | deflated handle limit inflater =>
      simp only [readChunk] at read
      generalize given : Inflow.readChunk m { handle, limit, inflater } n = answer at read
      obtain ⟨answer, next, m₁⟩ := answer
      cases read
      have hands := Inflow.hands_readChunk (f := { handle, limit, inflater }) sane given
      exact ⟨hands.sane, hands.bytes, hands.remainder⟩

/-! ### What can be read at all -/

/-- Reading chunks of some lengths, from media that answer in whatever way, has brought `bytes`
and led to the second cursor. -/
inductive Yields (c : Cursor) : List UInt8 → Cursor → Prop where
  | nothing : c.Yields [] c
  | more {bytes chunk : List UInt8} {c' c'' : Cursor} {m m' : Medium} {n : Nat}
      (yields : c.Yields bytes c') (read : c'.readChunk m n = (.ok chunk, c'', m')) :
      c.Yields (bytes ++ chunk) c''

/-- The bytes that can be read at a cursor before its data ends or cannot be decoded: they can be
read, and whatever else can be read is a beginning of them. -/
structure Whole (c : Cursor) (bytes : List UInt8) : Prop where
  reached : ∃ c', c.Yields bytes c'
  longest : ∀ other c', c.Yields other c' → other <+: bytes

variable {c c' : Cursor} {bytes : List UInt8}

/-- What has been read and what is left make up what was left before. -/
theorem Yields.append_remainder (yields : c.Yields bytes c') (sane : c.Sane) :
    c'.Sane ∧ bytes ++ c'.remainder = c.remainder := by
  induction yields with
  | nothing => exact ⟨sane, rfl⟩
  | more yields read ih =>
      obtain ⟨sane', whole⟩ := ih
      obtain ⟨sane'', rfl, behind⟩ := readChunk_eq_ok sane' read
      refine ⟨sane'', ?_⟩
      rw [behind, List.append_assoc, List.take_append_drop, whole]

theorem Whole.unique {bytes' : List UInt8} (whole : c.Whole bytes) (whole' : c.Whole bytes') :
    bytes = bytes' := by
  obtain ⟨_, yields⟩ := whole.reached
  obtain ⟨_, yields'⟩ := whole'.reached
  exact (whole'.longest _ _ yields).eq_of_length_le (whole.longest _ _ yields').length_le

/-- As many as `n` bytes can be read. -/
def YieldsCount (c : Cursor) (n : Nat) : Prop := ∃ bytes c', c.Yields bytes c' ∧ bytes.length = n

/-- There are such bytes at every cursor: all that can be read is a beginning of what is left, so
of any two the shorter is a beginning of the longer. -/
theorem exists_whole (sane : c.Sane) : ∃ bytes, c.Whole bytes := by
  classical
  have begins : ∀ {bytes c'}, c.Yields bytes c' → bytes <+: c.remainder := fun yields =>
    ⟨_, (yields.append_remainder sane).2⟩
  have none_read : c.YieldsCount 0 := ⟨[], c, .nothing, rfl⟩
  obtain ⟨bytes, c', yields, most⟩ := Nat.findGreatest_spec (Nat.zero_le _) none_read
  refine ⟨bytes, ⟨c', yields⟩, ?_⟩
  intro other c'' yields'
  apply List.prefix_of_prefix_length_le (begins yields') (begins yields)
  rw [most]
  exact Nat.le_findGreatest (begins yields').length_le ⟨other, c'', yields', rfl⟩

end BackupRestore.Cursor
