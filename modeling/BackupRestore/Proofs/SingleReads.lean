/-
Module: BackupRestore.Proofs.SingleReads
Purpose: Reading a chunk is reading on, one read at a time, until the buffer is full.
Main exports: Cursor.Piece, Medium.readOnce, Cursor.Inflow.decode, Cursor.read, Cursor.Collects,
  Cursor.Inflow.endsAs_fill, Cursor.collects_readChunk
-/
import BackupRestore.Proofs.Cursor
import BackupRestore.Proofs.HeldBytes
import BackupRestore.Proofs.Remainder

namespace BackupRestore

/-!
A single read brings what there is at the moment: some bytes, though fewer than were asked for, or
nothing because it was interrupted.  A reader that needs more reads on, each time for what is still
missing, until its buffer is full or a read brings nothing at all (`Cursor.Collects`).

`Cursor.readChunk` does not read that way.  It fills a buffer in one go, keeps the bytes decoded
for it with the inflater, and repeats interrupted reads where they occur.  The two agree.  What a
reader has already collected are the latest bytes before those that wait for delivery, so an
inflater that keeps them (`Deflate.Inflater.hold`) makes the same steps as one that has given them
away.
-/

/-! ### Single reads -/

/-- What a single read gives. -/
inductive Cursor.Piece where
  /-- These bytes have come; none come at the end. -/
  | brought (bytes : List UInt8)
  | interrupted
  | failed (cause : IoError)
deriving Repr, Inhabited, DecidableEq

/-- One read of at most `wanted` bytes. -/
def Medium.readOnce (m : Medium) (h : Handle) (wanted : Nat) : Cursor.Piece × Handle × Medium :=
  match m.delivery.read h.available wanted with
  | (.moved n, delivery) => (.brought (h.upcoming n), h.advance n, { m with delivery })
  | (.interrupted, delivery) => (.interrupted, h, { m with delivery })
  | (.failed cause, delivery) => (.failed cause, h, { m with delivery })

namespace Medium

/-- A read that repeats interrupted ones begins with one. -/
theorem read_eq (m : Medium) (h : Handle) (wanted : Nat) :
    m.read h wanted =
      match m.readOnce h wanted with
      | (.brought bytes, h, m) => (.ok bytes, h, m)
      | (.interrupted, h, m) => m.read h wanted
      | (.failed cause, h, m) => (.error cause, h, m) := by
  have reading : m.delivery.readOn h.available wanted =
      match m.delivery.read h.available wanted with
      | (.moved n, delivery) => (.ok n, delivery)
      | (.failed cause, delivery) => (.error cause, delivery)
      | (.interrupted, delivery) => delivery.readOn h.available wanted := by
    rw [Delivery.readOn]
    split <;> rename_i eq <;> simp only [eq]
  unfold read readOnce
  rw [reading]
  cases m.delivery.read h.available wanted with
  | mk answer delivery => cases answer <;> rfl

/-- Where no read fails, a single read is interrupted or brings bytes, and some if there are any. -/
theorem readOnce_of_sound {m : Medium} (sound : m.delivery.Sound) (h : Handle) (wanted : Nat) :
    (∃ delivery : Delivery, delivery.Sound ∧ delivery.fates.length < m.delivery.fates.length ∧
      m.readOnce h wanted = (.interrupted, h, { m with delivery })) ∨
    (∃ (n : Nat) (delivery : Delivery), delivery.Sound ∧
      delivery.fates.length ≤ m.delivery.fates.length ∧ n ≤ wanted ∧ n ≤ h.available ∧
      (0 < h.available → 0 < wanted → 0 < n) ∧
      m.readOnce h wanted = (.brought (h.upcoming n), h.advance n, { m with delivery })) := by
  unfold readOnce
  split
  · rename_i n delivery moved
    have bound := Delivery.read_moved_le moved
    exact .inr ⟨n, delivery, (sound.read moved).1, Delivery.read_fates_le moved, bound.1,
      bound.2, Delivery.read_moved_pos moved, rfl⟩
  · rename_i delivery interrupted
    exact .inl ⟨delivery, (sound.read interrupted).1,
      Delivery.read_interrupted_fates interrupted, rfl⟩
  · rename_i cause delivery failed
    exact absurd rfl ((sound.read failed).2 cause)

end Medium

namespace Cursor

namespace Inflow

/-- One read for more compressed bytes. -/
def fetchOnce (m : Medium) (f : Inflow) : Piece × Inflow × Medium :=
  if f.limit = 0 then (.brought [], f, m)
  else
    match m.readOnce f.handle (min f.limit fetchSize) with
    | (.brought bytes, handle, m) =>
        (.brought bytes,
          { handle, limit := f.limit - bytes.length, inflater := f.inflater.feed bytes }, m)
    | (.interrupted, _, m) => (.interrupted, f, m)
    | (.failed cause, _, m) => (.failed cause, f, m)

theorem limit_fetchOnce {m m' : Medium} {f f' : Inflow} {b : UInt8} {bytes : List UInt8}
    (fetched : f.fetchOnce m = (.brought (b :: bytes), f', m')) : f'.limit < f.limit := by
  unfold fetchOnce at fetched
  split at fetched
  · cases fetched
  · split at fetched
    · cases fetched
      simp only [List.length_cons]
      omega
    · cases fetched
    · cases fetched

/-- Decode until a byte can be delivered, and deliver up to `n` of those that there are.  More
compressed bytes are fetched unless they are known to have come to their end. -/
def decode (m : Medium) (f : Inflow) (n : Nat) (atEnd : Bool) : Piece × Inflow × Medium :=
  let (inflater, stop) := f.inflater.run n
  let f := { f with inflater }
  match stop with
  | .enough | .finished => (.brought (f.deliver n).1, (f.deliver n).2, m)
  | .corrupt => (.failed .corruptDeflate, f.forget, m)
  | .starved =>
      if f.inflater.waiting ≠ 0 then (.brought (f.deliver n).1, (f.deliver n).2, m)
      else if atEnd then (.failed .incompleteDeflate, f.forget, m)
      else
        match h : f.fetchOnce m with
        | (.brought [], f, m) => (.failed .incompleteDeflate, f.forget, m)
        | (.brought (_ :: _), next, m) =>
            have : next.limit < f.limit := limit_fetchOnce h
            next.decode m n false
        | (.interrupted, f, m) => (.interrupted, f, m)
        | (.failed cause, f, m) => (.failed cause, f, m)
termination_by f.limit

/-- One read of at most `n` decoded bytes.  If no compressed bytes are at hand, some are fetched
first. -/
def readOnce (m : Medium) (f : Inflow) (n : Nat) : Piece × Inflow × Medium :=
  if f.isDry then
    match f.fetchOnce m with
    | (.brought bytes, f, m) => f.decode m n bytes.isEmpty
    | (.interrupted, f, m) => (.interrupted, f, m)
    | (.failed cause, f, m) => (.failed cause, f, m)
  else f.decode m n false

/-- The cursor over compressed data. -/
def cursor (f : Inflow) : Cursor := .deflated f.handle f.limit f.inflater

/-- The same answer, with a cursor in it. -/
def lift (answer : Piece × Inflow × Medium) : Piece × Cursor × Medium :=
  (answer.1, answer.2.1.cursor, answer.2.2)

end Inflow

/-- One read of at most `n` bytes of the data. -/
def read (m : Medium) (c : Cursor) (n : Nat) : Piece × Cursor × Medium :=
  match c with
  | stored handle limit =>
      if limit = 0 then (.brought [], stored handle limit, m)
      else
        match m.readOnce handle (min n limit) with
        | (.brought bytes, handle, m) =>
            (.brought bytes, stored handle (limit - bytes.length), m)
        | (.interrupted, handle, m) => (.interrupted, stored handle limit, m)
        | (.failed cause, handle, m) => (.failed cause, stored handle limit, m)
  | deflated handle limit inflater =>
      Inflow.lift (({ handle, limit, inflater } : Inflow).readOnce m n)

/-- Reading on until a buffer is full.  The first three are the count of bytes that are missing and
what a read for them has given; the others are what is answered in the end, and the cursor then.
Bytes that were collected before a failure are lost with it. -/
inductive Collects :
    Nat → Piece × Cursor × Medium → Except IoError (List UInt8) → Cursor → Prop where
  /-- The data has come to its end. -/
  | ended {n : Nat} {c : Cursor} {m : Medium} : Collects n (.brought [], c, m) (.ok []) c
  | failed {n : Nat} {cause : IoError} {c : Cursor} {m : Medium} :
      Collects n (.failed cause, c, m) (.error cause) c
  | again {n : Nat} {c c' : Cursor} {m : Medium} {answer : Except IoError (List UInt8)}
      (rest : Collects n (c.read m n) answer c') : Collects n (.interrupted, c, m) answer c'
  | full {n : Nat} {piece : List UInt8} {c : Cursor} {m : Medium} (some_came : piece ≠ [])
      (fills : piece.length = n) : Collects n (.brought piece, c, m) (.ok piece) c
  | more {n : Nat} {piece : List UInt8} {c c' : Cursor} {m : Medium}
      {answer : Except IoError (List UInt8)} (some_came : piece ≠ []) (short : piece.length < n)
      (rest : Collects (n - piece.length) (c.read m (n - piece.length)) answer c') :
      Collects n (.brought piece, c, m) (answer.map (piece ++ ·)) c'

theorem Collects.more_ok {n : Nat} {piece bytes : List UInt8} {c c' : Cursor} {m : Medium}
    (some_came : piece ≠ []) (short : piece.length < n)
    (rest : Collects (n - piece.length) (c.read m (n - piece.length)) (.ok bytes) c') :
    Collects n (.brought piece, c, m) (.ok (piece ++ bytes)) c' :=
  .more some_came short rest

/-! ### Fetching one read at a time -/

namespace Inflow

variable {f f' : Inflow} {m m' : Medium} {c' : Cursor}
  {answer : Except IoError (List UInt8)}

/-- What a single fetch does where no read fails: it is interrupted, and the fetch that repeats
interrupted reads goes on behind it, or it is that fetch. -/
inductive FetchedOnce (f : Inflow) (m : Medium) : Piece × Inflow × Medium → Prop where
  | interrupted {m' : Medium} (sound : m'.delivery.Sound)
      (fewer : m'.delivery.fates.length < m.delivery.fates.length)
      (goes_on : f.fetch m = f.fetch m') : FetchedOnce f m (.interrupted, f, m')
  | spent {m' : Medium} (sound : m'.delivery.Sound) (spent : f.Spent)
      (fetched : f.fetch m = (.ok 0, f, m')) : FetchedOnce f m (.brought [], f, m')
  | came {b : UInt8} {bytes : List UInt8} {k : Nat} {f' : Inflow} {m' : Medium}
      (sound : m'.delivery.Sound) (fed : ∃ fed, f'.inflater = f.inflater.feed fed)
      (some_left : ¬f.Spent) (fetched : f.fetch m = (.ok (k + 1), f', m')) :
      FetchedOnce f m (.brought (b :: bytes), f', m')

theorem fetchedOnce (f : Inflow) (sound : m.delivery.Sound) : f.FetchedOnce m (f.fetchOnce m) := by
  unfold fetchOnce
  by_cases none_left : f.limit = 0
  · rw [if_pos none_left]
    refine .spent sound ?_ ?_
    · rw [Spent, none_left, Handle.upcoming_zero]
    · rw [fetch, if_pos none_left]
  · rw [if_neg none_left]
    rcases Medium.readOnce_of_sound sound f.handle (min f.limit fetchSize) with
      ⟨d, sound', fewer, once⟩ | ⟨n, d, sound', -, asked, left, -, once⟩
    · rw [once]
      refine .interrupted sound' fewer ?_
      rw [fetch, if_neg none_left, Medium.read_eq, once, fetch, if_neg none_left]
    · have length : (f.handle.upcoming n).length = n := by
        rw [Medium.length_upcoming, Nat.min_eq_left left]
      have within : n ≤ f.limit := Nat.le_trans asked (Nat.min_le_left _ _)
      have fetched : f.fetch m =
          (.ok n,
            { handle := f.handle.advance n
              limit := f.limit - n
              inflater := f.inflater.feed (f.handle.upcoming n) },
            { m with delivery := d }) := by
        rw [fetch, if_neg none_left, Medium.read_eq, once]
        simp only [length, Nat.min_eq_left within]
      obtain ⟨k, f', m', fetched', -, -, none_iff, -⟩ := f.fetch_of_sound sound
      rw [fetched] at fetched'
      cases fetched'
      simp only [once, length]
      cases n with
      | zero =>
          rw [Handle.upcoming_zero, Deflate.Inflater.feed_nil] at fetched
          rw [Handle.upcoming_zero, Deflate.Inflater.feed_nil]
          exact .spent sound' (none_iff.1 rfl) fetched
      | succ k =>
          cases bytes : f.handle.upcoming (k + 1) with
          | nil =>
              rw [bytes] at length
              cases length
          | cons b rest =>
              rw [bytes] at fetched
              exact .came sound' ⟨_, rfl⟩ (mt none_iff.2 (Nat.succ_ne_zero k)) fetched

/-- A read that fetches first brings what decoding brings behind the fetch. -/
theorem collects_of_fetch {f₁ : Inflow} {m₁ : Medium} {n k : Nat} (dry : f.isDry = true)
    (sound : m.delivery.Sound) (fetched : f.fetch m = (.ok k, f₁, m₁))
    (goes_on : Collects n (lift (f₁.decode m₁ n (k == 0))) answer c') :
    Collects n (lift (f.readOnce m n)) answer c' := by
  induction fates : m.delivery.fates.length using Nat.strongRecOn generalizing m with
  | _ count ih =>
      have once := f.fetchedOnce sound
      unfold readOnce
      rw [if_pos dry]
      generalize f.fetchOnce m = result at once
      cases once with
      | interrupted sound' fewer on =>
          rw [on] at fetched
          exact .again (ih _ (fates ▸ fewer) sound' fetched rfl)
      | spent sound' _ nothing =>
          rw [nothing] at fetched
          cases fetched
          exact goes_on
      | came sound' _ _ some_came =>
          rw [some_came] at fetched
          cases fetched
          exact goes_on

/-- The steps of decoding for a single read. -/
theorem decode_eq (m : Medium) (f : Inflow) (n : Nat) (atEnd : Bool) :
    f.decode m n atEnd =
      match f.inflater.run n with
      | (inflater, .enough) | (inflater, .finished) =>
          (.brought (({ f with inflater } : Inflow).deliver n).1,
            (({ f with inflater } : Inflow).deliver n).2, m)
      | (inflater, .corrupt) => (.failed .corruptDeflate, ({ f with inflater } : Inflow).forget, m)
      | (inflater, .starved) =>
          if inflater.waiting ≠ 0 then
            (.brought (({ f with inflater } : Inflow).deliver n).1,
              (({ f with inflater } : Inflow).deliver n).2, m)
          else if atEnd then
            (.failed .incompleteDeflate, ({ f with inflater } : Inflow).forget, m)
          else
            match ({ f with inflater } : Inflow).fetchOnce m with
            | (.brought [], f, m) => (.failed .incompleteDeflate, f.forget, m)
            | (.brought (_ :: _), next, m) => next.decode m n false
            | (.interrupted, f, m) => (.interrupted, f, m)
            | (.failed cause, f, m) => (.failed cause, f, m) := by
  rw [decode]
  rcases f.inflater.run n with ⟨inflater, stop⟩
  cases stop with
  | starved =>
      simp only
      split
      · rfl
      · split
        · rfl
        · split <;> rename_i eq <;> simp only [eq]
  | _ => rfl

/-! ### A chunk filled in one go -/

/-- Let a buffer be filled in one go with `filled`, of which `collected` has come before.  That ends
as reading on for the missing `n` bytes does, after a first read that has given `once`. -/
def EndsAs (n : Nat) (once : Piece × Inflow × Medium) (collected : List UInt8)
    (filled : Except IoError (List UInt8) × Inflow × Medium) : Prop :=
  ∃ answer, Collects n (lift once) answer filled.2.1.cursor ∧
    filled.1 = answer.map (collected ++ ·)

/-- The inflow with `w` of the bytes that it has delivered waiting again. -/
def hold (f : Inflow) (w : Nat) : Inflow := { f with inflater := f.inflater.hold w }

theorem fetch_hold (m : Medium) (f : Inflow) (w : Nat) :
    (f.hold w).fetch m = ((f.fetch m).1, (f.fetch m).2.1.hold w, (f.fetch m).2.2) := by
  unfold fetch
  have limit : (f.hold w).limit = f.limit := rfl
  have handle : (f.hold w).handle = f.handle := rfl
  rw [limit, handle]
  split
  · rfl
  · rcases m.read f.handle (min f.limit fetchSize) with ⟨cause | bytes, handle', m₁⟩ <;> rfl

theorem deliver_hold {w : Nat} (holds : f.inflater.Holds w) (n : Nat) :
    (f.hold w).deliver (n + w) = (f.inflater.held w ++ (f.deliver n).1, (f.deliver n).2) := by
  have delivered := holds.deliver_hold n
  simp only [Inflow.deliver, hold, delivered]

/-- Behind the end of the data, and with nothing waiting, a read brings nothing. -/
theorem decode_of_finished {n : Nat} {atEnd : Bool}
    (finished : f.inflater.step.stop? = some .finished) (none_waits : f.inflater.waiting = 0)
    (missing : 0 < n) : f.decode m n atEnd = (.brought [], f, m) := by
  have delivered := Deflate.Inflater.deliver_of_waiting_eq_zero none_waits n
  have short : f.inflater.waiting < n := none_waits ▸ missing
  rw [decode_eq, Deflate.Inflater.run_of_finished finished short]
  simp only [Inflow.deliver, delivered]

theorem hold_deliver (f : Inflow) (n w : Nat) :
    (f.deliver n).2.hold (min n f.inflater.waiting + w) = f.hold w := by
  have all : f.inflater.waiting - min n f.inflater.waiting + (min n f.inflater.waiting + w) =
      f.inflater.waiting + w := by omega
  simp only [Inflow.deliver, Deflate.Inflater.deliver, hold, Deflate.Inflater.hold, all]

theorem isDry_of_taken (taken : f.inflater.takeUp = f.inflater) : f.isDry = true := by
  rw [isDry, ← taken]
  rfl

/-- Enough bytes wait for the buffer. -/
theorem endsAs_enough {w n : Nat} (holds : f.inflater.Holds w) (enough : n ≤ f.inflater.waiting)
    (missing : 0 < n) :
    EndsAs n (.brought (f.deliver n).1, (f.deliver n).2, m) (f.inflater.held w)
      (.ok ((f.hold w).deliver (n + w)).1, ((f.hold w).deliver (n + w)).2, m) := by
  have fills : (f.deliver n).1.length = n :=
    (length_deliver holds.sane n).trans (Nat.min_eq_left enough)
  have some_came : (f.deliver n).1 ≠ [] := by
    intro nothing
    rw [nothing] at fills
    exact absurd fills (Nat.ne_of_lt missing)
  rw [deliver_hold holds]
  exact ⟨_, .full some_came fills, rfl⟩

/-- Behind the end of the data one more read brings nothing.  It fetches if nothing is at hand. -/
theorem collects_at_end {f₁ : Inflow} {n : Nat} (sound : m.delivery.Sound)
    (finished : f.inflater.step.stop? = some .finished) (none_waits : f.inflater.waiting = 0)
    (missing : 0 < n)
    (behind : (f.isDry = false ∧ f₁ = f) ∨
      (f.isDry = true ∧ ∃ k m₁, f.fetch m = (.ok k, f₁, m₁))) :
    Collects n (lift (f.readOnce m n)) (.ok []) f₁.cursor := by
  rcases behind with ⟨at_hand, rfl⟩ | ⟨dry, k, m₁, fetched⟩
  · rw [readOnce, at_hand, if_neg Bool.false_ne_true,
      decode_of_finished finished none_waits missing]
    exact .ended
  · obtain ⟨k', f', m', fetched', -, ⟨fed, source⟩, -⟩ := f.fetch_of_sound sound
    rw [fetched] at fetched'
    cases fetched'
    have still : f₁.inflater.step.stop? = some .finished := by
      rw [source, (f.inflater.ahead_feed fed).same_step
        (Deflate.eight_dvd_flatMap_byteBits fed) finished nofun]
      exact finished
    have still_none : f₁.inflater.waiting = 0 := by
      rw [source]
      exact none_waits
    apply collects_of_fetch dry sound fetched
    rw [decode_of_finished still still_none missing]
    exact .ended

/-- At the end of the data the bytes that wait are the last ones. -/
theorem endsAs_finished {w n : Nat} (sound : m.delivery.Sound) (holds : f.inflater.Holds w)
    (finished : f.inflater.step.stop? = some .finished) :
    EndsAs n (.brought (f.deliver n).1, (f.deliver n).2, m) (f.inflater.held w)
      ((f.hold w).deliverLast m w (n + w)) := by
  have length := length_deliver holds.sane n
  have collected := holds.length_held
  have still : (f.deliver n).2.inflater.step.stop? = some .finished :=
    (f.inflater.stop_deliver n).trans finished
  have left : (f.deliver n).2.inflater.waiting = f.inflater.waiting - min n f.inflater.waiting :=
    rfl
  unfold deliverLast
  rw [deliver_hold holds]
  generalize f.deliver n = delivered at length still left
  obtain ⟨bytes, next⟩ := delivered
  simp only [List.length_append, collected] at length still left ⊢
  have bound : bytes.length ≤ n := by omega
  rcases Nat.eq_zero_or_pos bytes.length with none_came | some_came
  · obtain rfl := List.eq_nil_of_length_eq_zero none_came
    simp only [List.length_nil, Nat.add_zero, Nat.lt_irrefl, decide_false, Bool.and_false,
      Bool.false_and, Bool.false_eq_true, if_false]
    exact ⟨_, .ended, rfl⟩
  · have some_bytes : bytes ≠ [] := List.length_pos_iff.1 some_came
    rcases Nat.eq_or_lt_of_le bound with fills | short
    · have filled : ¬w + bytes.length < n + w := by omega
      simp only [filled, decide_false, Bool.and_false, Bool.false_eq_true, if_false]
      exact ⟨_, .full some_bytes fills, rfl⟩
    · have none_waits : next.inflater.waiting = 0 := by omega
      have missing : 0 < n - bytes.length := by omega
      have grown : w < w + bytes.length := by omega
      have unfilled : w + bytes.length < n + w := by omega
      have last : (.ok (f.inflater.held w ++ bytes) : Except IoError (List UInt8)) =
          ((Except.ok []).map (bytes ++ ·)).map (f.inflater.held w ++ ·) := by
        simp only [Except.map, List.append_nil]
      simp only [grown, unfilled, decide_true, Bool.and_true]
      cases dry : next.isDry with
      | false =>
          have ends := collects_at_end sound still none_waits missing (.inl ⟨dry, rfl⟩)
          exact ⟨_, .more some_bytes short ends, last⟩
      | true =>
          obtain ⟨k, f₁, m₁, fetched, -⟩ := next.fetch_of_sound sound
          have ends := collects_at_end sound still none_waits missing (.inr ⟨dry, k, m₁, fetched⟩)
          simp only [fetched, if_true]
          exact ⟨_, .more some_bytes short ends, last⟩

/-- Decoding that has starved with nothing waiting goes on behind a fetch. -/
theorem collects_of_starved {f₁ : Inflow} {m₁ : Medium} {n k : Nat} {atEnd : Bool}
    (sound : m.delivery.Sound) (dry : f.isDry = true)
    (starved : f.inflater.run n = (f.inflater, .starved)) (none_waits : f.inflater.waiting = 0)
    (ended : atEnd = true → f.Spent) (fetched : f.fetch m = (.ok k, f₁, m₁))
    (goes_on : Collects n (lift (f₁.decode m₁ n (k == 0))) answer c') :
    Collects n (lift (f.decode m n atEnd)) answer c' := by
  have waits : ¬f.inflater.waiting ≠ 0 := not_not_intro none_waits
  -- Where nothing is to come, decoding fails, whenever it is tried.
  have fails (m : Medium) : f.decode m n true = (.failed .incompleteDeflate, f.forget, m) := by
    rw [decode_eq, starved]
    simp only [if_neg waits, if_true]
  have spent_case (spent : f.Spent) :
      answer = .error .incompleteDeflate ∧ c' = f.forget.cursor := by
    obtain ⟨k', f₁', m₁', fetched', -, -, none_iff, same⟩ := f.fetch_of_sound sound
    rw [fetched] at fetched'
    cases fetched'
    obtain rfl := none_iff.2 spent
    rw [same rfl] at goes_on
    change Collects n (lift (f.decode m₁ n true)) answer c' at goes_on
    rw [fails] at goes_on
    cases goes_on
    exact ⟨rfl, rfl⟩
  cases atEnd with
  | true =>
      obtain ⟨rfl, rfl⟩ := spent_case (ended rfl)
      rw [fails]
      exact .failed
  | false =>
      rw [decode_eq, starved]
      simp only [if_neg waits, Bool.false_eq_true, if_false]
      have once := f.fetchedOnce sound
      change Collects n (lift (match f.fetchOnce m with
        | (.brought [], f, m) => (.failed .incompleteDeflate, f.forget, m)
        | (.brought (_ :: _), next, m) => next.decode m n false
        | (.interrupted, f, m) => (.interrupted, f, m)
        | (.failed cause, f, m) => (.failed cause, f, m))) answer c'
      generalize f.fetchOnce m = result at once
      cases once with
      | interrupted sound' fewer on =>
          rw [on] at fetched
          exact .again (collects_of_fetch dry sound' fetched goes_on)
      | spent sound' spent nothing =>
          obtain ⟨rfl, rfl⟩ := spent_case spent
          exact .failed
      | came sound' fed some_left some_came =>
          rw [some_came] at fetched
          cases fetched
          exact goes_on

/-- The rest of filling a buffer of which `w` bytes are collected, when decoding has starved. -/
def fillOn (m : Medium) (f : Inflow) (w wanted : Nat) :
    Except IoError (List UInt8) × Inflow × Medium :=
  match f.fetch m with
  | (.error cause, f, m) => (.error cause, f.forget, m)
  | (.ok 0, f, m) => (.error .incompleteDeflate, f.forget, m)
  | (.ok (_ + 1), next, m) => next.fill m w wanted

/-- What fills the buffer behind a fetch ends as reading on does, if it does so where something has
been fetched. -/
theorem endsAs_fillOn {w n : Nat} (sound : m.delivery.Sound)
    (starved : f.inflater.run n = (f.inflater, .starved)) (none_waits : f.inflater.waiting = 0)
    (goes_on : ∀ (next : Inflow) (m' : Medium), next.limit < f.limit → m'.delivery.Sound →
      next.inflater.held w = f.inflater.held w →
      (∃ bytes, next.inflater = f.inflater.feed bytes) →
      EndsAs n (next.decode m' n false) (next.inflater.held w)
        ((next.hold w).fill m' w (n + w))) :
    ∃ k f₁ m₁, f.fetch m = (.ok k, f₁, m₁) ∧
      EndsAs n (f₁.decode m₁ n (k == 0)) (f.inflater.held w)
        ((f.hold w).fillOn m w (n + w)) := by
  obtain ⟨k, f₁, m₁, fetched, sound₁, ⟨fed, source⟩, -, same⟩ := f.fetch_of_sound sound
  have waits : ¬f.inflater.waiting ≠ 0 := not_not_intro none_waits
  cases k with
  | zero =>
      obtain rfl := same rfl
      have filled : (f₁.hold w).fillOn m w (n + w) =
          (.error .incompleteDeflate, f₁.forget, m₁) := by
        simp only [fillOn, fetch_hold, fetched]
        rfl
      refine ⟨0, f₁, m₁, fetched, ?_⟩
      rw [filled, decode_eq, starved]
      simp only [if_neg waits]
      exact ⟨_, .failed, rfl⟩
  | succ k =>
      have filled : (f.hold w).fillOn m w (n + w) = (f₁.hold w).fill m₁ w (n + w) := by
        simp only [fillOn, fetch_hold, fetched]
      have shorter : f₁.limit < f.limit := by
        have := limit_fetch fetched
        omega
      have held : f₁.inflater.held w = f.inflater.held w := by
        rw [source]
        rfl
      refine ⟨k + 1, f₁, m₁, fetched, ?_⟩
      rw [filled, ← held]
      exact goes_on f₁ m₁ shorter sound₁ held ⟨fed, source⟩

theorem decode_of_starved {inflater : Deflate.Inflater} {n : Nat} {atEnd : Bool}
    (sane : f.inflater.Sane) (ran : f.inflater.run n = (inflater, .starved)) :
    f.decode m n atEnd = ({ f with inflater } : Inflow).decode m n atEnd := by
  have stops := (Deflate.Inflater.reaches_run sane n).2
  rw [ran] at stops
  obtain ⟨taken, short⟩ := Deflate.Inflater.run_eq_starved ran
  rw [decode_eq, ran, decode_eq, Deflate.Inflater.run_of_starved stops taken short]

/-- All that waits at `f` has been delivered, and is `piece`; `w` bytes were delivered before. -/
structure Empties (f : Inflow) (w : Nat) (piece : List UInt8) (next : Inflow) : Prop where
  length : piece.length = f.inflater.waiting
  none_waits : next.inflater.waiting = 0
  limit : next.limit = f.limit
  holds : next.inflater.Holds (f.inflater.waiting + w)
  held : next.inflater.held (f.inflater.waiting + w) = f.inflater.held w ++ piece
  hold : next.hold (f.inflater.waiting + w) = f.hold w
  stop : next.inflater.step.stop? = f.inflater.step.stop?
  taken : f.inflater.takeUp = f.inflater → next.inflater.takeUp = next.inflater

theorem empties {w n : Nat} (holds : f.inflater.Holds w) (short : f.inflater.waiting ≤ n) :
    f.Empties w (f.deliver n).1 (f.deliver n).2 := by
  have all : min n f.inflater.waiting = f.inflater.waiting := Nat.min_eq_right short
  constructor
  case length =>
    rw [length_deliver holds.sane, all]
  case none_waits =>
    change f.inflater.waiting - min n f.inflater.waiting = 0
    rw [all, Nat.sub_self]
  case limit => rfl
  case holds =>
    rw [← all]
    exact holds.deliver n
  case held =>
    rw [← all]
    exact holds.held_deliver n
  case hold =>
    rw [← all]
    exact f.hold_deliver n w
  case stop => exact f.inflater.stop_deliver n
  case taken => exact fun taken => Deflate.Inflater.takeUp_deliver taken n

/-- Let decoding have starved.  The bytes that wait come first, and reading goes on behind a
fetch. -/
theorem endsAs_starving {w n : Nat} {atEnd : Bool} (sound : m.delivery.Sound)
    (holds : f.inflater.Holds w) (taken : f.inflater.takeUp = f.inflater)
    (starved : f.inflater.step.stop? = some .starved) (short : f.inflater.waiting < n)
    (ended : atEnd = true → f.Spent)
    (goes_on : ∀ (next : Inflow) (m' : Medium) (w n : Nat), next.limit < f.limit →
      m'.delivery.Sound → next.inflater.Holds w → 0 < n →
      EndsAs n (next.decode m' n false) (next.inflater.held w)
        ((next.hold w).fill m' w (n + w))) :
    EndsAs n (f.decode m n atEnd) (f.inflater.held w)
      ((f.hold w).fillOn m (f.inflater.waiting + w) (n + w)) := by
  have runs := Deflate.Inflater.run_of_starved starved taken short
  rcases Nat.eq_zero_or_pos f.inflater.waiting with none_waits | some_wait
  · obtain ⟨k, f₁, m₁, fetched, answer, collects, told⟩ := endsAs_fillOn sound runs none_waits
      (fun next m' shorter sound' held ⟨fed, source⟩ =>
        goes_on next m' w n shorter sound' (source ▸ holds.feed fed) (Nat.zero_lt_of_lt short))
    rw [none_waits, Nat.zero_add]
    exact ⟨answer, collects_of_starved sound (isDry_of_taken taken) runs none_waits ended fetched
      collects, told⟩
  · have brings : f.decode m n atEnd = (.brought (f.deliver n).1, (f.deliver n).2, m) := by
      rw [decode_eq, runs]
      exact if_pos (Nat.ne_of_gt some_wait)
    have empties := f.empties holds (Nat.le_of_lt short)
    rw [brings]
    generalize f.deliver n = delivered at empties
    obtain ⟨piece, next⟩ := delivered
    simp only at empties
    have length := empties.length
    have still_short : piece.length < n := length ▸ short
    have some_came : piece ≠ [] := List.length_pos_iff.1 (length ▸ some_wait)
    have missing : 0 < n - piece.length := Nat.sub_pos_of_lt still_short
    have runs' := Deflate.Inflater.run_of_starved (empties.stop.trans starved)
      (empties.taken taken) (empties.none_waits ▸ missing)
    obtain ⟨k, f₁, m₁, fetched, answer, collects, told⟩ :=
      endsAs_fillOn sound runs' empties.none_waits
        (fun later m' shorter sound' _ ⟨fed, source⟩ =>
          goes_on later m' _ _ (empties.limit ▸ shorter) sound'
            (source ▸ empties.holds.feed fed) missing)
    have whole : n - piece.length + (f.inflater.waiting + w) = n + w := by omega
    rw [whole, empties.hold] at collects told
    have reads := collects_of_fetch (isDry_of_taken (empties.taken taken)) sound fetched collects
    refine ⟨answer.map (piece ++ ·), .more some_came still_short reads, ?_⟩
    rw [told, empties.held]
    cases answer with
    | error cause => rfl
    | ok bytes => exact congrArg Except.ok (List.append_assoc _ _ _)

/-- Let `n` bytes be missing and `w` be collected.  What fills a buffer of both in one go keeps the
bytes collected, and ends as reading on does.  Every fetch leaves less to fetch. -/
theorem endsAs_fill {w n : Nat} {atEnd : Bool} (sound : m.delivery.Sound)
    (holds : f.inflater.Holds w) (missing : 0 < n) (ended : atEnd = true → f.Spent) :
    EndsAs n (f.decode m n atEnd) (f.inflater.held w) ((f.hold w).fill m w (n + w)) := by
  induction left : f.limit using Nat.strongRecOn generalizing m f w n atEnd with
  | _ limit ih =>
      have keeps : (f.hold w).inflater.run (n + w) = _ := f.inflater.run_hold w n
      have running := Deflate.Inflater.reaches_run holds.sane n
      rw [Inflow.fill_eq, keeps]
      generalize ran : f.inflater.run n = result at running
      obtain ⟨inflater, stop⟩ := result
      obtain ⟨reaches, stops⟩ := running
      have holds' : ({ f with inflater } : Inflow).inflater.Holds w := reaches.holds holds
      rw [← reaches.held]
      cases stop with
      | enough =>
          rw [decode_eq, ran]
          exact endsAs_enough holds' stops missing
      | finished =>
          rw [decode_eq, ran]
          exact endsAs_finished sound holds' stops
      | corrupt =>
          rw [decode_eq, ran]
          exact ⟨_, .failed, rfl⟩
      | starved =>
          obtain ⟨taken, short⟩ := Deflate.Inflater.run_eq_starved ran
          rw [decode_of_starved holds.sane ran]
          exact endsAs_starving (f := { f with inflater }) sound holds' taken stops short ended
            (fun next m' w n shorter sound' holds missing =>
              ih next.limit (left ▸ shorter) sound' holds missing nofun rfl)

/-- A buffer of which nothing has come yet. -/
theorem collects_fill {n : Nat} {atEnd : Bool} (sound : m.delivery.Sound)
    (sane : f.inflater.Sane) (missing : 0 < n) (ended : atEnd = true → f.Spent) :
    Collects n (lift (f.decode m n atEnd)) (f.fill m 0 n).1 (f.fill m 0 n).2.1.cursor := by
  obtain ⟨answer, collects, told⟩ := endsAs_fill sound sane.holds missing ended
  have same : (f.fill m 0 n).1 = answer := by
    rw [f.inflater.held_zero] at told
    cases answer <;> exact told
  rw [same]
  exact collects

theorem collects_readChunk {n : Nat} (sound : m.delivery.Sound) (sane : f.inflater.Sane)
    (missing : 0 < n) :
    Collects n (lift (f.readOnce m n)) (f.readChunk m n).1 (f.readChunk m n).2.1.cursor := by
  rw [readChunk, if_neg (Nat.ne_of_gt missing)]
  cases dry : f.isDry with
  | false =>
      rw [readOnce, dry, if_neg Bool.false_ne_true, if_neg Bool.false_ne_true]
      exact collects_fill sound sane missing nofun
  | true =>
      obtain ⟨k, f₁, m₁, fetched, sound₁, ⟨fed, source⟩, none_iff, same⟩ := f.fetch_of_sound sound
      have ended : (k == 0) = true → f₁.Spent := by
        intro none_came
        have none_came : k = 0 := beq_iff_eq.1 none_came
        rw [same none_came]
        exact none_iff.1 none_came
      rw [if_pos rfl, fetched]
      exact collects_of_fetch dry sound fetched
        (collects_fill sound₁ (source ▸ sane.feed fed) missing ended)

end Inflow

/-! ### Chunks of data of either kind -/

/-- A single read of stored bytes is interrupted, or brings the next ones, and none only if none
are asked for or left. -/
theorem read_stored_of_sound {m : Medium} (sound : m.delivery.Sound) (handle : Handle)
    (limit n : Nat) :
    (∃ delivery : Delivery, delivery.Sound ∧ delivery.fates.length < m.delivery.fates.length ∧
      (stored handle limit).read m n =
        (.interrupted, stored handle limit, { m with delivery })) ∨
    (∃ (k : Nat) (delivery : Delivery), delivery.Sound ∧
      delivery.fates.length ≤ m.delivery.fates.length ∧
      k ≤ min (min n limit) handle.available ∧
      (k = 0 → min (min n limit) handle.available = 0) ∧
      (stored handle limit).read m n =
        (.brought (handle.upcoming k), stored (handle.advance k) (limit - k),
          { m with delivery })) := by
  by_cases none_left : limit = 0
  · refine .inr ⟨0, m.delivery, sound, Nat.le_refl _, Nat.zero_le _, ?_, ?_⟩
    · omega
    · rw [Handle.upcoming_zero]
      exact if_pos none_left
  · simp only [read, if_neg none_left]
    rcases Medium.readOnce_of_sound sound handle (min n limit) with
      ⟨d, sound', fewer, once⟩ | ⟨k, d, sound', fates, asked, left, some_come, once⟩
    · refine .inl ⟨d, sound', fewer, ?_⟩
      rw [once]
    · have length : (handle.upcoming k).length = k := by
        rw [Medium.length_upcoming, Nat.min_eq_left left]
      refine .inr ⟨k, d, sound', fates, Nat.le_min.2 ⟨asked, left⟩, ?_, ?_⟩
      · omega
      · simp only [once, length]

theorem Inflow.sound_decode {m : Medium} {f : Inflow} (sound : m.delivery.Sound) (n : Nat)
    (atEnd : Bool) : (f.decode m n atEnd).2.2.delivery.Sound := by
  induction left : f.limit using Nat.strongRecOn generalizing m f atEnd with
  | _ limit ih =>
      rw [decode_eq]
      generalize f.inflater.run n = ran
      obtain ⟨inflater, stop⟩ := ran
      cases stop with
      | starved =>
          simp only
          split
          · exact sound
          · split
            · exact sound
            · have once := ({ f with inflater } : Inflow).fetchedOnce sound
              generalize fetched : ({ f with inflater } : Inflow).fetchOnce m = result at once
              cases once with
              | interrupted sound' => exact sound'
              | spent sound' => exact sound'
              | came sound' =>
                  have shorter := limit_fetchOnce fetched
                  exact ih _ (left ▸ shorter) sound' false rfl
      | _ => exact sound

/-- Where no read fails, none fails afterwards. -/
theorem sound_read {c : Cursor} {m : Medium} (sound : m.delivery.Sound) (n : Nat) :
    (c.read m n).2.2.delivery.Sound := by
  cases c with
  | stored handle limit =>
      rcases read_stored_of_sound sound handle limit n with
        ⟨d, sound', -, once⟩ | ⟨k, d, sound', -, -, -, once⟩ <;>
      · rw [once]
        exact sound'
  | deflated handle limit inflater =>
      change (Inflow.readOnce m { handle, limit, inflater } n).2.2.delivery.Sound
      unfold Inflow.readOnce
      split
      · have once := ({ handle, limit, inflater } : Inflow).fetchedOnce sound
        generalize ({ handle, limit, inflater } : Inflow).fetchOnce m = result at once
        cases once with
        | interrupted sound' => exact sound'
        | spent sound' => exact Inflow.sound_decode sound' n _
        | came sound' => exact Inflow.sound_decode sound' n _
      · exact Inflow.sound_decode sound n false

/-- Stored bytes come in whatever pieces; together they are the next ones. -/
theorem collects_stored {m : Medium} {handle : Handle} {limit n all : Nat}
    (sound : m.delivery.Sound) (missing : 0 < n)
    (counted : all = min (min n limit) handle.available) :
    Collects n ((stored handle limit).read m n) (.ok (handle.upcoming all))
      (stored (handle.advance all) (limit - all)) := by
  induction size : n + m.delivery.fates.length using Nat.strongRecOn
    generalizing n m handle limit all with
  | _ size ih =>
      rcases read_stored_of_sound sound handle limit n with
        ⟨d, sound', fewer, once⟩ | ⟨k, d, sound', fates, within, none_left, once⟩
      · rw [once]
        exact .again (ih (n + d.fates.length) (by omega) sound' missing counted rfl)
      · have length : (handle.upcoming k).length = k := by
          rw [Medium.length_upcoming]
          omega
        rw [once]
        rw [← counted] at within none_left
        rcases Nat.eq_zero_or_pos k with nothing | some_came
        · rw [nothing, none_left nothing, Handle.upcoming_zero]
          exact .ended
        · have some_bytes : handle.upcoming k ≠ [] := List.length_pos_iff.1 (by omega)
          have bound : k ≤ n := by omega
          rcases Nat.eq_or_lt_of_le bound with fills | short
          · have same : all = k := by omega
            rw [same]
            exact .full some_bytes (length.trans fills)
          · have further : all - k =
                min (min (n - k) (limit - k)) (handle.advance k).available := by
              have behind : (handle.advance k).available = handle.available - k :=
                Nat.sub_add_eq _ _ _
              omega
            have rest : Collects (n - k)
                ((stored (handle.advance k) (limit - k)).read { m with delivery := d } (n - k))
                (.ok ((handle.advance k).upcoming (all - k)))
                (stored ((handle.advance k).advance (all - k)) (limit - k - (all - k))) :=
              ih (n - k + d.fates.length) (by omega) sound' (Nat.sub_pos_of_lt short) further rfl
            have place : (handle.advance k).advance (all - k) = handle.advance all := by
              have sum : handle.position + k + (all - k) = handle.position + all := by omega
              simp only [Handle.advance, sum]
            have left : limit - k - (all - k) = limit - all := by omega
            have bytes : handle.upcoming all =
                handle.upcoming k ++ (handle.advance k).upcoming (all - k) := by
              rw [← Handle.upcoming_add, Nat.add_sub_cancel' within]
            rw [place, left] at rest
            rw [bytes]
            apply Collects.more_ok some_bytes
            case short =>
              rw [length]
              exact short
            case rest =>
              rw [length]
              exact rest

/-- A chunk holds what reading on collects, and the cursor is the same behind it. -/
theorem collects_readChunk {m : Medium} {c : Cursor} {n : Nat} (sound : m.delivery.Sound)
    (sane : c.Sane) (missing : 0 < n) :
    Collects n (c.read m n) (c.readChunk m n).1 (c.readChunk m n).2.1 := by
  cases c with
  | stored handle limit =>
      obtain ⟨d, -, filled⟩ := Medium.fill_of_sound sound handle (min n limit)
      simp only [readChunk, filled, Medium.length_upcoming]
      rw [← handle.upcoming_min]
      exact collects_stored sound missing rfl
  | deflated handle limit inflater =>
      exact Inflow.collects_readChunk sound sane missing

end Cursor
end BackupRestore
