/-
Module: BackupRestore.Proofs.Writing
Purpose: What an output has taken after bytes have been offered to it.
Main exports: Output.taken_of_write, Output.TakesUp, Output.Refuses, Output.Stops,
  Output.writeAll_takes_or_refuses, Output.writeAll_cases, Output.taken_writeAll,
  Output.taken_flush, Output.Unfailing, Output.writeAll_of_unfailing
-/
import BackupRestore.Output

namespace BackupRestore.Output

/-!
Bytes that are offered until all are taken stand with the output in one piece behind those that
it had, in however many portions it takes them.  If it fails on the way, a beginning of them
does, and never all: an output can fail only while something is left to take.
-/

theorem writeAll_nil (o : Output) : (o.writeAll []).1 = .ok () := by rw [writeAll]

/-- An output takes what it is offered from the front. -/
theorem taken_of_write {o o' : Output} {bytes : List UInt8} {n : Nat}
    (answer : o.write bytes = (.ok n, o')) : o'.taken = o.taken ++ bytes.take n := by
  unfold write at answer
  split at answer
  · cases answer
  · cases answer
    exact taken_accept _ _ _

/-- It takes nothing if it refuses it. -/
theorem taken_of_write_error {o o' : Output} {bytes : List UInt8} {cause : IoError}
    (answer : o.write bytes = (.error cause, o')) : o'.taken = o.taken := by
  unfold write at answer
  split at answer <;> cases answer
  rfl

/-! ### Portions, and the write at which an output fails -/

/-- The output takes the bytes in portions, each of them with one write. -/
inductive TakesUp : Output → List UInt8 → Output → Prop where
  | nil (o : Output) : TakesUp o [] o
  | portion {o o₁ o₂ : Output} {offered more : List UInt8} {n : Nat}
      (answer : o.write offered = (.ok (n + 1), o₁)) (rest : TakesUp o₁ more o₂) :
      TakesUp o (offered.take (n + 1) ++ more) o₂

/-- Of the bytes that are left the output takes none: a write of the next ones fails, or says that
nothing is taken. -/
inductive Refuses (o : Output) (left : List UInt8) : IoError → Output → Prop where
  | failed {offered : List UInt8} {cause : IoError} {o' : Output} (some_left : offered ≠ [])
      (next : offered <+: left) (answer : o.write offered = (.error cause, o')) :
      Refuses o left cause o'
  | idle {offered : List UInt8} {o' : Output} (some_left : offered ≠ [])
      (next : offered <+: left) (answer : o.write offered = (.ok 0, o')) :
      Refuses o left .nothingTaken o'

theorem TakesUp.taken {o o' : Output} {bytes : List UInt8} (takes : o.TakesUp bytes o') :
    o'.taken = o.taken ++ bytes := by
  induction takes with
  | nil o => rw [List.append_nil]
  | portion answer rest ih => rw [ih, taken_of_write answer, List.append_assoc]

theorem TakesUp.append {o o₁ o₂ : Output} {bytes more : List UInt8} (takes : o.TakesUp bytes o₁)
    (rest : o₁.TakesUp more o₂) : o.TakesUp (bytes ++ more) o₂ := by
  induction takes with
  | nil o => exact rest
  | portion answer _ ih =>
      rw [List.append_assoc]
      exact .portion answer (ih rest)

theorem Refuses.taken {o o' : Output} {left : List UInt8} {cause : IoError}
    (refuses : o.Refuses left cause o') : o'.taken = o.taken := by
  cases refuses with
  | failed some_left next answer => exact taken_of_write_error answer
  | idle some_left next answer =>
      rw [taken_of_write answer, List.take_zero, List.append_nil]

theorem Refuses.append {o o' : Output} {left : List UInt8} {cause : IoError}
    (refuses : o.Refuses left cause o') (more : List UInt8) :
    o.Refuses (left ++ more) cause o' := by
  cases refuses with
  | failed some_left next answer =>
      exact .failed some_left (next.trans (List.prefix_append left more)) answer
  | idle some_left next answer =>
      exact .idle some_left (next.trans (List.prefix_append left more)) answer

/-- Either all bytes are taken in portions, or some are, and of those that are left none. -/
theorem writeAll_takes_or_refuses (o : Output) (bytes : List UInt8) :
    (∃ o', o.writeAll bytes = (.ok (), o') ∧ o.TakesUp bytes o') ∨
    (∃ cause o₁ o' n, o.writeAll bytes = (.error cause, o') ∧ n < bytes.length ∧
      o.TakesUp (bytes.take n) o₁ ∧ o₁.Refuses (bytes.drop n) cause o') := by
  fun_induction writeAll o bytes with
  | case1 o => exact Or.inl ⟨o, rfl, .nil o⟩
  | case2 o b rest cause next wrote =>
      exact Or.inr ⟨cause, o, next, 0, rfl, Nat.succ_pos _, .nil o,
        .failed (List.cons_ne_nil b rest) (List.prefix_refl _) wrote⟩
  | case3 o b rest next wrote =>
      exact Or.inr ⟨_, o, next, 0, rfl, Nat.succ_pos _, .nil o,
        .idle (List.cons_ne_nil b rest) (List.prefix_refl _) wrote⟩
  | case4 o b rest n next wrote ih =>
      rcases ih with ⟨o', all, takes⟩ | ⟨cause, o₁, o', k, failed, within, takes, refuses⟩
      · refine Or.inl ⟨o', all, ?_⟩
        have portions := TakesUp.portion wrote takes
        rwa [List.take_succ_cons, List.cons_append, List.take_append_drop] at portions
      · refine Or.inr ⟨cause, o₁, o', n + 1 + k, failed, ?_, ?_, ?_⟩
        · rw [List.length_drop] at within
          rw [List.length_cons]
          omega
        · rw [List.take_add, List.drop_succ_cons]
          exact .portion wrote takes
        · rw [List.drop_drop] at refuses
          rwa [Nat.succ_add, List.drop_succ_cons]

/-- Either all bytes are taken, or the output fails with some of them left. -/
theorem writeAll_cases (o : Output) (bytes : List UInt8) :
    (∃ o', o.writeAll bytes = (.ok (), o') ∧ o'.taken = o.taken ++ bytes) ∨
    (∃ cause o' n, o.writeAll bytes = (.error cause, o') ∧ n < bytes.length ∧
      o'.taken = o.taken ++ bytes.take n) := by
  rcases o.writeAll_takes_or_refuses bytes with
    ⟨o', all, takes⟩ | ⟨cause, o₁, o', n, failed, within, takes, refuses⟩
  · exact Or.inl ⟨o', all, takes.taken⟩
  · exact Or.inr ⟨cause, o', n, failed, within, refuses.taken.trans takes.taken⟩

/-- The output fails at bytes that it is to take and then to pass on.  Either it has taken the first
`n` of them, and refuses the next, or it has taken all, and does not pass them on. -/
inductive Stops (o : Output) (bytes : List UInt8) : Nat → IoError → Output → Prop where
  | write {n : Nat} {cause : IoError} {o₁ o' : Output} (within : n < bytes.length)
      (takes : o.TakesUp (bytes.take n) o₁) (refuses : o₁.Refuses (bytes.drop n) cause o') :
      Stops o bytes n cause o'
  | flush {cause : IoError} {o₁ o' : Output} (takes : o.TakesUp bytes o₁)
      (failed : o₁.flush = (.error cause, o')) : Stops o bytes bytes.length cause o'

/-- An output that has taken all of some bytes has them behind those that it had. -/
theorem taken_writeAll {o : Output} {bytes : List UInt8}
    (written : (o.writeAll bytes).1 = .ok ()) : (o.writeAll bytes).2.taken = o.taken ++ bytes := by
  rcases o.writeAll_cases bytes with ⟨o', all, taken⟩ | ⟨cause, o', n, failed, -⟩
  · rw [all]
    exact taken
  · rw [failed] at written
    cases written

theorem taken_flush (o : Output) : o.flush.2.taken = o.taken := by
  unfold flush
  split <;> rfl

section Stopped

variable {o o' : Output} {bytes : List UInt8} {n : Nat} {cause : IoError}

theorem Stops.length_le (stops : o.Stops bytes n cause o') : n ≤ bytes.length := by
  cases stops with
  | write within _ _ => exact Nat.le_of_lt within
  | flush _ _ => exact Nat.le_refl _

theorem Stops.taken (stops : o.Stops bytes n cause o') :
    o'.taken = o.taken ++ bytes.take n := by
  cases stops with
  | write _ takes refuses => exact refuses.taken.trans takes.taken
  | @flush _ o₁ _ takes failed =>
      have kept := o₁.taken_flush
      rw [failed] at kept
      rw [List.take_length]
      exact kept.trans takes.taken

end Stopped

/-! ### Outputs that never fail -/

/-- The output takes at least one of the bytes that it is offered, and no more than there are,
and every flush of it succeeds. -/
structure Unfailing (o : Output) : Prop where
  writes : ∀ call taken offered, 0 < offered →
    ∃ n, 0 < n ∧ n ≤ offered ∧ o.onWrite call taken offered = .ok n
  flushes : ∀ call, o.onFlush call = none

/-- Such an output takes at least one of the bytes of each write. -/
theorem Unfailing.write {o : Output} (unfailing : o.Unfailing) {bytes : List UInt8}
    (some_left : bytes ≠ []) : ∃ n o', o.write bytes = (.ok (n + 1), o') := by
  obtain ⟨n, some_taken, -, answer⟩ :=
    unfailing.writes o.writes o.count bytes.length (List.length_pos_iff.2 some_left)
  obtain ⟨k, rfl⟩ := Nat.exists_eq_succ_of_ne_zero (Nat.ne_of_gt some_taken)
  refine ⟨k, ({ o with writes := o.writes + 1 } : Output).accept bytes (k + 1), ?_⟩
  simp only [Output.write, answer]

theorem Unfailing.not_refuses {o o' : Output} (unfailing : o.Unfailing) {left : List UInt8}
    {cause : IoError} : ¬ o.Refuses left cause o' := by
  intro refuses
  cases refuses with
  | failed some_left _ answer =>
      obtain ⟨n, o₁, eq⟩ := unfailing.write some_left
      rw [answer] at eq
      cases eq
  | idle some_left _ answer =>
      obtain ⟨n, o₁, eq⟩ := unfailing.write some_left
      rw [answer] at eq
      cases eq

theorem TakesUp.unfailing {o o' : Output} {bytes : List UInt8} (takes : o.TakesUp bytes o')
    (unfailing : o.Unfailing) : o'.Unfailing := by
  induction takes with
  | nil o => exact unfailing
  | portion answer _ ih =>
      apply ih
      unfold Output.write at answer
      split at answer
      · cases answer
      · cases answer
        exact ⟨unfailing.writes, unfailing.flushes⟩

/-- An output that never fails takes all that it is offered, in whatever portions. -/
theorem writeAll_of_unfailing {o : Output} (unfailing : o.Unfailing) (bytes : List UInt8) :
    ∃ o', o.writeAll bytes = (.ok (), o') ∧ o'.Unfailing ∧ o'.taken = o.taken ++ bytes := by
  rcases o.writeAll_takes_or_refuses bytes with
    ⟨o', all, takes⟩ | ⟨cause, o₁, o', n, -, -, takes, refuses⟩
  · exact ⟨o', all, takes.unfailing unfailing, takes.taken⟩
  · exact absurd refuses (takes.unfailing unfailing).not_refuses

theorem Unfailing.not_stops {o o' : Output} (unfailing : o.Unfailing) {bytes : List UInt8} {n : Nat}
    {cause : IoError} : ¬ o.Stops bytes n cause o' := by
  intro stops
  cases stops with
  | write _ takes refuses => exact (takes.unfailing unfailing).not_refuses refuses
  | @flush _ o₁ _ takes failed =>
      rw [flush, (takes.unfailing unfailing).flushes] at failed
      cases failed

theorem flush_of_unfailing {o : Output} (unfailing : o.Unfailing) :
    ∃ o', o.flush = (.ok (), o') ∧ o'.Unfailing ∧ o'.taken = o.taken := by
  refine ⟨{ o with flushes := o.flushes + 1 }, ?_, ⟨unfailing.writes, unfailing.flushes⟩, rfl⟩
  simp only [flush, unfailing.flushes]

end BackupRestore.Output
