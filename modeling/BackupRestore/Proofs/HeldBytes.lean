/-
Module: BackupRestore.Proofs.HeldBytes
Purpose: An inflater that keeps bytes which have been delivered decodes as one that does not.
Main exports: Deflate.Inflater.hold, Deflate.Inflater.held, Deflate.Inflater.Holds,
  Deflate.Inflater.run_hold, Deflate.Inflater.run_of_starved
-/
import BackupRestore.Proofs.Inflation

namespace BackupRestore.Deflate.Inflater

/-!
The bytes that wait for delivery are the latest that have been decoded, and no step of decoding
looks at how many they are.  So bytes that have been delivered can be kept waiting
(`Inflater.hold`), and decoding makes the same steps.  A run for so many bytes more stops where it
stops without them.
-/

variable {s t : Inflater}

/-- The inflater with `w` of the bytes that it has delivered waiting again. -/
def hold (s : Inflater) (w : Nat) : Inflater := { s with waiting := s.waiting + w }

/-- The latest `w` bytes that have been delivered. -/
def held (s : Inflater) (w : Nat) : List UInt8 :=
  ((s.latestFirst.take (s.waiting + w)).drop s.waiting).reverse

/-- As many bytes have been delivered. -/
structure Holds (s : Inflater) (w : Nat) : Prop where
  counted : s.count = s.latestFirst.length
  delivered : s.waiting + w ≤ s.latestFirst.length

theorem Holds.sane {w : Nat} (holds : s.Holds w) : s.Sane :=
  ⟨holds.counted, Nat.le_trans (Nat.le_add_right _ _) holds.delivered⟩

theorem Sane.holds (sane : s.Sane) : s.Holds 0 := ⟨sane.counted, sane.waiting⟩

theorem Holds.length_held {w : Nat} (holds : s.Holds w) : (s.held w).length = w := by
  have delivered := holds.delivered
  rw [held, List.length_reverse, List.length_drop, List.length_take, Nat.min_eq_left delivered,
    Nat.add_sub_cancel_left]

theorem held_zero (s : Inflater) : s.held 0 = [] := by
  rw [held, Nat.add_zero, List.drop_eq_nil_of_le (List.length_take_le _ _), List.reverse_nil]

theorem apply_hold (s : Inflater) (w : Nat) (item : Item) :
    (s.hold w).apply item =
      match s.apply item with
      | .advanced next => .advanced (next.hold w)
      | stop => stop := by
  cases item with
  | literal byte =>
      simp only [apply, put, hold, Nat.add_right_comm]
  | endOfBlock => rfl
  | copy length distance =>
      by_cases beyond : s.count < distance
      · have beyond' : (s.hold w).count < distance := beyond
        simp only [apply, if_pos beyond, if_pos beyond']
        rfl
      · have within : ¬(s.hold w).count < distance := beyond
        simp only [apply, if_neg beyond, if_neg within]
        simp only [hold, Nat.add_right_comm]

/-- Bytes that are kept are not looked at. -/
theorem step_hold (s : Inflater) (w : Nat) :
    (s.hold w).step =
      match s.step with
      | .advanced next => .advanced (next.hold w)
      | stop => stop := by
  unfold step
  have phase : (s.hold w).phase = s.phase := rfl
  have source : (s.hold w).source = s.source := rfl
  rw [phase, source]
  cases s.phase with
  | finished => rfl
  | tooFar => rfl
  | blockStart =>
      simp only
      cases readBlockHeader s.source <;> rfl
  | stored left =>
      simp only
      cases s.source.number 8 with
      | done byte rest => simp only [put, hold, Nat.add_right_comm]
      | short => rfl
      | corrupt => rfl
  | coded literals distances =>
      simp only
      cases readItem literals distances s.source with
      | done item rest =>
          exact apply_hold { s with source := rest, phase := .coded literals distances } w item
      | short => rfl
      | corrupt => rfl

theorem hasEnough_hold (s : Inflater) (w wanted : Nat) :
    (s.hold w).hasEnough (wanted + w) = s.hasEnough wanted := by
  have more : (wanted + w < s.waiting + w) ↔ (wanted < s.waiting) := Nat.add_lt_add_iff_right
  have just : (wanted + w == s.waiting + w) = (wanted == s.waiting) := by
    rw [Bool.eq_iff_iff, beq_iff_eq, beq_iff_eq, Nat.add_left_inj]
  have here : (s.hold w).isAtByte = s.isAtByte := rfl
  rw [hasEnough, hasEnough, here]
  change (decide (wanted + w < s.waiting + w) || (wanted + w == s.waiting + w && _)) = _
  rw [just, decide_eq_decide.2 more]

/-- The steps of a run. -/
theorem run_eq (s : Inflater) (wanted : Nat) :
    s.run wanted =
      if s.hasEnough wanted then (s, .enough)
      else
        match s.step with
        | .advanced next => next.run wanted
        | .starved => (s.takeUp, if wanted ≤ s.waiting then .enough else .starved)
        | .tooFar => (s, if wanted ≤ s.waiting then .enough else .corrupt)
        | .corrupt => (s, .corrupt)
        | .finished => (s, .finished) := by
  rw [run]
  split
  · rfl
  · split <;> rename_i eq <;> simp only [eq]

/-- An inflater that keeps bytes runs as one does that has given them away. -/
theorem run_hold (s : Inflater) (w wanted : Nat) :
    (s.hold w).run (wanted + w) = ((s.run wanted).1.hold w, (s.run wanted).2) := by
  induction size : s.source.size using Nat.strongRecOn generalizing s with
  | _ size ih =>
      have enough_held : (wanted + w ≤ (s.hold w).waiting) = (wanted ≤ s.waiting) :=
        propext Nat.add_le_add_iff_right
      rw [run_eq, run_eq s, hasEnough_hold, step_hold]
      by_cases enough : s.hasEnough wanted = true
      · rw [if_pos enough, if_pos enough]
      · rw [if_neg enough, if_neg enough]
        cases stepped : s.step with
        | advanced next => exact ih _ (size ▸ size_step stepped) next rfl
        | starved =>
            simp only [enough_held]
            rfl
        | tooFar => simp only [enough_held]
        | corrupt => rfl
        | finished => rfl

/-- Decoding leaves the bytes as they are that have been delivered. -/
theorem Reaches.held {w : Nat} (reaches : s.Reaches t) : t.held w = s.held w := by
  obtain ⟨added, bytes, -, waiting⟩ := reaches.grows
  have place : s.waiting + added.length + w = added.length + (s.waiting + w) := by omega
  rw [Inflater.held, Inflater.held, bytes, waiting, place, List.take_length_add_append,
    Nat.add_comm s.waiting, List.drop_length_add_append]

theorem Holds.feed {w : Nat} (holds : s.Holds w) (bytes : List UInt8) : (s.feed bytes).Holds w :=
  ⟨holds.counted, holds.delivered⟩

theorem Reaches.holds {w : Nat} (reaches : s.Reaches t) (holds : s.Holds w) : t.Holds w := by
  obtain ⟨added, bytes, -, waiting⟩ := reaches.grows
  have delivered := holds.delivered
  refine ⟨(reaches.sane holds.sane).counted, ?_⟩
  rw [bytes, List.length_append, waiting]
  omega

/-- The bytes that are kept stand in front of those that are delivered next. -/
theorem Holds.held_append {w : Nat} (holds : s.Holds w) (n : Nat) :
    ((s.latestFirst.take (s.waiting + w)).drop (s.waiting - min n s.waiting)).reverse =
      s.held w ++ (s.deliver n).1 := by
  have delivered := holds.delivered
  have whole : (s.latestFirst.take s.waiting).length = s.waiting := by
    rw [List.length_take]
    omega
  have first : s.latestFirst.take (s.waiting + w) =
      s.latestFirst.take s.waiting ++ (s.latestFirst.take (s.waiting + w)).drop s.waiting := by
    have taken := List.take_append_drop s.waiting (s.latestFirst.take (s.waiting + w))
    rw [List.take_take, Nat.min_eq_left (Nat.le_add_right _ _)] at taken
    exact taken.symm
  rw [first, List.drop_append_of_le_length (by rw [whole]; exact Nat.sub_le _ _),
    List.reverse_append]
  rfl

theorem Holds.deliver_hold {w : Nat} (holds : s.Holds w) (n : Nat) :
    (s.hold w).deliver (n + w) = (s.held w ++ (s.deliver n).1, (s.deliver n).2) := by
  have moved : s.waiting + w - min (n + w) (s.waiting + w) = s.waiting - min n s.waiting := by
    omega
  rw [← holds.held_append]
  simp only [deliver, hold, moved]

theorem Holds.held_deliver {w : Nat} (holds : s.Holds w) (n : Nat) :
    (s.deliver n).2.held (min n s.waiting + w) = s.held w ++ (s.deliver n).1 := by
  have all : s.waiting - min n s.waiting + (min n s.waiting + w) = s.waiting + w := by omega
  rw [← holds.held_append]
  simp only [deliver, held, all]

theorem Holds.deliver {w : Nat} (holds : s.Holds w) (n : Nat) :
    (s.deliver n).2.Holds (min n s.waiting + w) := by
  have delivered := holds.delivered
  refine ⟨holds.counted, ?_⟩
  simp only [Inflater.deliver]
  omega

theorem hold_deliver (s : Inflater) (n : Nat) :
    (s.deliver n).2.hold (min n s.waiting) = s := by
  have all : s.waiting - min n s.waiting + min n s.waiting = s.waiting :=
    Nat.sub_add_cancel (Nat.min_le_right _ _)
  simp only [Inflater.deliver, hold, all]

/-- Delivering does not change how decoding goes on. -/
theorem stop_deliver (s : Inflater) (n : Nat) : (s.deliver n).2.step.stop? = s.step.stop? := by
  have step := (s.deliver n).2.step_hold (min n s.waiting)
  rw [hold_deliver] at step
  rw [step]
  cases (s.deliver n).2.step <;> rfl

theorem takeUp_deliver (taken : s.takeUp = s) (n : Nat) :
    (s.deliver n).2.takeUp = (s.deliver n).2 := by
  have source : s.source.takeUp = s.source := congrArg source taken
  simp only [Inflater.deliver, takeUp, source]

/-- A run that has starved has taken up all bits, and has fewer bytes than were wanted. -/
theorem run_eq_starved {wanted : Nat} (ran : s.run wanted = (t, .starved)) :
    t.takeUp = t ∧ t.waiting < wanted := by
  induction size : s.source.size using Nat.strongRecOn generalizing s with
  | _ size ih =>
      rw [run_eq] at ran
      by_cases enough : s.hasEnough wanted = true
      · rw [if_pos enough] at ran
        cases ran
      · rw [if_neg enough] at ran
        cases stepped : s.step with
        | advanced next =>
            rw [stepped] at ran
            exact ih _ (size ▸ size_step stepped) ran rfl
        | starved =>
            simp only [stepped] at ran
            by_cases many : wanted ≤ s.waiting
            · rw [if_pos many] at ran
              cases ran
            · rw [if_neg many] at ran
              cases ran
              refine ⟨?_, Nat.lt_of_not_le many⟩
              simp only [takeUp, BitSource.takeUp, BitSource.toBits, List.flatMap_nil,
                List.append_nil]
        | tooFar =>
            simp only [stepped] at ran
            by_cases many : wanted ≤ s.waiting
            · rw [if_pos many] at ran
              cases ran
            · rw [if_neg many] at ran
              cases ran
        | corrupt =>
            rw [stepped] at ran
            cases ran
        | finished =>
            rw [stepped] at ran
            cases ran

/-- Fewer bytes than are wanted are not enough. -/
theorem hasEnough_of_short {wanted : Nat} (short : s.waiting < wanted) :
    s.hasEnough wanted = false := by
  have not_more : ¬wanted < s.waiting := by omega
  have other : (wanted == s.waiting) = false := beq_false_of_ne (by omega)
  rw [hasEnough, decide_eq_false not_more, other]
  rfl

/-- Once decoding has starved, it starves again. -/
theorem run_of_starved {wanted : Nat} (starved : s.step.stop? = some .starved)
    (taken : s.takeUp = s) (short : s.waiting < wanted) : s.run wanted = (s, .starved) := by
  have unfilled : ¬wanted ≤ s.waiting := Nat.not_le.2 short
  rw [run_eq, hasEnough_of_short short, if_neg Bool.false_ne_true]
  cases stepped : s.step <;> rw [stepped] at starved <;> cases starved
  simp only [taken, if_neg unfilled]

theorem run_of_finished {wanted : Nat} (finished : s.step.stop? = some .finished)
    (short : s.waiting < wanted) : s.run wanted = (s, .finished) := by
  rw [run_eq, hasEnough_of_short short, if_neg Bool.false_ne_true]
  cases stepped : s.step <;> rw [stepped] at finished <;> cases finished

theorem deliver_of_waiting_eq_zero (none_waits : s.waiting = 0) (n : Nat) :
    s.deliver n = ([], s) := by
  have same : { s with waiting := 0 } = s := by rw [← none_waits]
  simp only [deliver, none_waits, Nat.min_zero, Nat.sub_zero, List.take_zero, List.drop_nil,
    List.reverse_nil, same]

end BackupRestore.Deflate.Inflater
