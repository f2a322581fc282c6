/-
Module: BackupRestore.Proofs.ChunkCodes
Purpose: What the wire code of a call for a chunk says of what the call has done.
Main exports: Cursor.length_readChunk_le, FullStream.Call.code, FullStream.Moment.CodeTells,
  FullStream.codeTells_nextChunk, FullStream.codesOf, FullStream.sum_codesOf
-/
import Mathlib.Algebra.BigOperators.Ring.Finset
import BackupRestore.Proofs.Prefixes

namespace BackupRestore

/-!
The host gets one number for a call: how many bytes went to its output, or one of three that are
negative.  The number says in which phase the stream has been left, since the answer does
(`FullStream.Agrees`), and how much the output has got, since that is what the call's effect is
(`FullStream.Moment.Effect`).

There is one thing that it does not say.  An output may take the beginning of a chunk and refuse
the rest.  Then the stream has failed, and the number says so, and not how much was taken.
-/

/-! ### The length of a chunk -/

namespace Cursor

namespace Inflow

variable {f f' : Inflow} {m m' : Medium} {n : Nat} {bytes : List UInt8}

theorem length_deliver_le (f : Inflow) (n : Nat) : (f.deliver n).1.length ≤ n := by
  simp only [deliver, Deflate.Inflater.deliver, List.length_reverse, List.length_drop,
    List.length_take]
  omega

theorem length_deliverLast_le {before : Nat}
    (given : f.deliverLast m before n = (.ok bytes, f', m')) : bytes.length ≤ n := by
  have short := f.length_deliver_le n
  unfold deliverLast at given
  generalize f.deliver n = delivered at given short
  obtain ⟨got, next⟩ := delivered
  simp only at given short
  split at given
  · split at given
    · cases given
    · cases given
      exact short
  · cases given
    exact short

/-- Decoding and fetching in turn.  Every fetch leaves less to fetch. -/
theorem length_fill_le {before : Nat} (given : f.fill m before n = (.ok bytes, f', m')) :
    bytes.length ≤ n := by
  induction left : f.limit using Nat.strongRecOn generalizing m f before with
  | _ limit ih =>
      rw [fill_eq] at given
      generalize f.inflater.run n = ran at given
      obtain ⟨inflater, stop⟩ := ran
      cases stop with
      | enough =>
          cases given
          exact length_deliver_le _ n
      | finished => exact length_deliverLast_le given
      | corrupt => cases given
      | starved =>
          simp only at given
          split at given
          · cases given
          · cases given
          · rename_i k next m₁ fetched
            have shorter := Inflow.limit_fetch fetched
            simp only at shorter
            exact ih next.limit (by omega) given rfl

theorem length_readChunk_le (given : f.readChunk m n = (.ok bytes, f', m')) :
    bytes.length ≤ n := by
  unfold readChunk at given
  split at given
  · cases given
    exact Nat.zero_le n
  · split at given
    · split at given
      · cases given
      · exact length_fill_le given
    · exact length_fill_le given

end Inflow

/-- A chunk is no longer than was asked for, whatever state the cursor is in. -/
theorem length_readChunk_le {c c' : Cursor} {m m' : Medium} {n : Nat} {bytes : List UInt8}
    (read : c.readChunk m n = (.ok bytes, c', m')) : bytes.length ≤ n := by
  cases c with
  | stored handle limit =>
      simp only [readChunk] at read
      split at read
      · cases read
      · rename_i got handle' m₁ filled
        obtain ⟨rfl, -⟩ := Medium.fill_of_none filled
        cases read
        rw [Medium.length_upcoming]
        omega
  | deflated handle limit inflater =>
      simp only [readChunk] at read
      generalize given : Inflow.readChunk m { handle, limit, inflater } n = answer at read
      obtain ⟨answer, next, m₁⟩ := answer
      cases read
      exact Inflow.length_readChunk_le given

end Cursor

/-! ### The code of an answer -/

/-- The wire code for an answer to a call for a chunk. -/
def chunkCodeOf (answer : Except RestoreError ChunkResult) : Int :=
  chunkCode (answer.mapError RestoreError.status)

section Codes

variable {answer : Except RestoreError ChunkResult}

theorem chunkCodeOf_data (n : Nat) :
    chunkCodeOf (.ok (.data n)) = ((min n maxWireCode : Nat) : Int) := rfl

theorem chunkCodeOf_noMoreData : chunkCodeOf (.ok .noMoreData) = -1 := rfl

theorem chunkCodeOf_error (e : RestoreError) :
    chunkCodeOf (.error e) = if e.isRejection then -1002 else -1000 := by
  simp only [chunkCodeOf, chunkCode, Except.mapError, RestoreError.status]
  split <;> rfl

/-- A count is never mistaken for a status. -/
theorem chunkCodeOf_data_ne (n : Nat) {code : Int} (negative : code < 0) :
    chunkCodeOf (.ok (.data n)) ≠ code := by
  have counts : 0 ≤ chunkCodeOf (.ok (.data n)) := Int.natCast_nonneg _
  exact Int.ne_of_gt (Int.lt_of_lt_of_le negative counts)

theorem chunkCodeOf_eq_noMoreData_iff : chunkCodeOf answer = -1 ↔ answer = .ok .noMoreData := by
  rcases answer with e | n | -
  · rw [chunkCodeOf_error]
    split <;> simp
  · exact ⟨fun code => absurd code (chunkCodeOf_data_ne n (by decide)), nofun⟩
  · simp [chunkCodeOf_noMoreData]

/-- There are two codes for errors, and they tell refusals from failures. -/
theorem chunkCodeOf_eq_error_iff (rejection : Bool) :
    chunkCodeOf answer = (if rejection then -1002 else -1000) ↔
      ∃ e, answer = .error e ∧ e.isRejection = rejection := by
  have negative : (if rejection then -1002 else -1000 : Int) < -1 := by
    cases rejection <;> decide
  rcases answer with e | n | -
  · rw [chunkCodeOf_error]
    cases rejection <;> cases kind : e.isRejection <;> simp [kind]
  · have never := chunkCodeOf_data_ne n (Int.lt_trans negative (by decide))
    refine ⟨fun code => absurd code never, ?_⟩
    rintro ⟨e, failed, -⟩
    cases failed
  · rw [chunkCodeOf_noMoreData]
    refine ⟨fun code => absurd code (Int.ne_of_gt negative), ?_⟩
    rintro ⟨e, failed, -⟩
    cases failed

/-- An answer that reports no data has one of three codes. -/
theorem chunkCodeOf_cases (no_data : ∀ n, answer ≠ .ok (.data n)) :
    chunkCodeOf answer = -1 ∨ chunkCodeOf answer = -1002 ∨ chunkCodeOf answer = -1000 := by
  rcases answer with e | n | -
  · rw [chunkCodeOf_error]
    split <;> simp
  · exact absurd rfl (no_data n)
  · exact Or.inl rfl

theorem chunkCodeOf_neg (no_data : ∀ n, answer ≠ .ok (.data n)) : chunkCodeOf answer < 0 := by
  rcases chunkCodeOf_cases no_data with code | code | code <;> rw [code] <;> decide

end Codes

namespace FullStream

/-- The wire code that the call is answered with. -/
def Call.code (call : Call) : Int := chunkCodeOf call.answer

/-- What the wire code of a call says, where chunks have `size` bytes. -/
structure Moment.CodeTells (layout : Layout) (size : Nat) (moment : Moment) (code : Int) :
    Prop where
  /-- The code is positive exactly if the call wrote data and its output refused none of it. -/
  positive : 0 < code ↔ moment.written ≠ [] ∧ ¬moment.WriteFails layout
  /-- Then it says how many bytes were written, as far as a code can. -/
  counted : 0 < code → code = ((min moment.written.length maxWireCode : Nat) : Int) ∧
    1 ≤ moment.written.length ∧ moment.written.length ≤ size
  exhausted : code = -1 ↔ moment.stream.closeReason? = some .exhausted
  rejected : code = -1002 ↔ moment.stream.closeReason? = some .rejected
  failed : code = -1000 ↔ moment.stream.closeReason? = some .failed ∨
    moment.stream.closeReason? = some .aborted
  /-- There are no other codes. -/
  complete : 0 < code ∨ code = -1 ∨ code = -1002 ∨ code = -1000
  /-- A call with another code than a positive one wrote nothing, or failed in writing a chunk.
  Of that, the output may have taken a part. -/
  otherwise : ¬0 < code → moment.written = [] ∨
    code = -1000 ∧ moment.WriteFails layout ∧ moment.written.length < size

section Calls

variable {s s' : FullStream} {layout : Layout} {m m' : Medium} {o o' : Output}
  {answer : Except RestoreError ChunkResult}

/-- A call that fails in writing ends the stream as failed. -/
theorem Course.failed_of_writeFails (course : s.Course layout m o answer s' m' o') (event : Event)
    (refused : Moment.WriteFails layout
      { event, earlier := s, before := m, call? := some { answer, before := o, after := o' },
        stream := s', medium := m' }) : s'.closeReason? = some .failed := by
  cases course with
  | closed phase =>
      exact absurd refused (not_writeFails_of_not_starts (not_starts_of_closed phase))
  | refused phase failed =>
      exact absurd refused (not_writeFails_of_not_starts (not_starts_of_refused phase failed))
  | unread starts read => rfl
  | unflushed starts read flushed => rfl
  | ended starts read flushed =>
      exact absurd refused (Moment.Reads.not_writeFails_of_nil ⟨_, _, starts, read⟩)
  | unwritten starts read some_bytes written => rfl
  | moved starts read some_bytes written =>
      exact absurd refused
        (Moment.Reads.not_writeFails rfl ⟨_, _, starts, read⟩ (congrArg Prod.fst written))

/-- An error that is no refusal is one in moving the package's data. -/
theorem Agrees.transfer_iff {package : String} (agrees : Agrees package answer s') :
    (∃ e, answer = .error e ∧ e.isRejection = false) ↔
      ∃ source, answer = .error (.transfer package source) := by
  constructor
  · rintro ⟨e, rfl, unrejected⟩
    rcases agrees.errors e rfl with rejected | ⟨source, rfl⟩
    · rw [unrejected] at rejected
      cases rejected
    · exact ⟨source, rfl⟩
  · rintro ⟨source, rfl⟩
    exact ⟨_, rfl, rfl⟩

/-- Where an answer tells in which phase it leaves the stream, so does its code. -/
theorem Agrees.codes {package : String} (agrees : Agrees package answer s') :
    (chunkCodeOf answer = -1 ↔ s'.closeReason? = some .exhausted) ∧
    (chunkCodeOf answer = -1002 ↔ s'.closeReason? = some .rejected) ∧
    (chunkCodeOf answer = -1000 ↔
      s'.closeReason? = some .failed ∨ s'.closeReason? = some .aborted) := by
  refine ⟨chunkCodeOf_eq_noMoreData_iff.trans agrees.noMoreData,
    (chunkCodeOf_eq_error_iff true).trans agrees.rejected, ?_⟩
  exact ((chunkCodeOf_eq_error_iff false).trans agrees.transfer_iff).trans agrees.transfer

theorem Moment.Reads.length_le {moment : Moment} {cursor cursor' : Cursor} {bytes : List UInt8}
    (reads : moment.Reads layout cursor bytes cursor') :
    bytes.length ≤ moment.earlier.chunkSize := by
  obtain ⟨m₁, m₂, -, read⟩ := reads
  exact Cursor.length_readChunk_le read

theorem ne_data_of_data?_eq_none {moment : Moment} {call : Call}
    (called : moment.call? = some call) (none_reported : moment.data? = none) (n : Nat) :
    call.answer ≠ .ok (.data n) := by
  intro reported
  rw [Moment.data?, called, Option.map_some, reported] at none_reported
  cases none_reported

theorem answer_of_data? {moment : Moment} {call : Call} (called : moment.call? = some call)
    {n : Nat} (reported : moment.data? = some n) : call.answer = .ok (.data n) := by
  rw [Moment.data?, called, Option.map_some] at reported
  split at reported
  · rename_i eq
    cases reported
    exact Option.some.inj eq
  · cases reported

/-- The code of a call that reports no data tells the phase. -/
theorem codeTells_of_no_data {moment : Moment} {call : Call} (called : moment.call? = some call)
    {package : String} (agrees : Agrees package call.answer moment.stream)
    (none_reported : moment.data? = none)
    (otherwise : moment.written = [] ∨
      moment.stream.closeReason? = some .failed ∧ moment.WriteFails layout ∧
        moment.written.length < moment.earlier.chunkSize) :
    moment.CodeTells layout moment.earlier.chunkSize call.code := by
  obtain ⟨exhausted, rejected, failed⟩ := agrees.codes
  have no_data := ne_data_of_data?_eq_none called none_reported
  have unsigned : ¬0 < call.code := Int.lt_asymm (chunkCodeOf_neg no_data)
  refine ⟨⟨fun above => absurd above unsigned, ?_⟩, fun above => absurd above unsigned, exhausted,
    rejected, failed, Or.inr (chunkCodeOf_cases no_data), fun _ => ?_⟩
  · rintro ⟨some_written, unrefused⟩
    rcases otherwise with nothing | ⟨-, refused, -⟩
    · exact absurd nothing some_written
    · exact absurd refused unrefused
  · rcases otherwise with nothing | ⟨ended, refused, short⟩
    · exact Or.inl nothing
    · exact Or.inr ⟨failed.2 (Or.inl ended), refused, short⟩

/-- What a code tells follows from the answer, which tells the phase, and from the effect. -/
theorem codeTells_of_effect {moment : Moment} {call : Call} (called : moment.call? = some call)
    {package : String} (agrees : Agrees package call.answer moment.stream)
    (failing : moment.WriteFails layout → moment.stream.closeReason? = some .failed)
    (effect : moment.Effect layout) :
    moment.CodeTells layout moment.earlier.chunkSize call.code := by
  cases effect with
  | nothing effect =>
      exact codeTells_of_no_data called agrees effect.data (Or.inl effect.written)
  | part effect =>
      have short : moment.written.length < moment.earlier.chunkSize := by
        have within := effect.within
        have chunk := effect.reads.length_le
        rw [effect.written, List.length_take]
        omega
      exact codeTells_of_no_data called agrees effect.data
        (Or.inr ⟨failing effect.refused, effect.refused, short⟩)
  | @chunk cursor cursor' bytes effect =>
      obtain ⟨exhausted, rejected, failed⟩ := agrees.codes
      have some_bytes := List.length_pos_iff.2 effect.some_bytes
      have code : call.code = ((min bytes.length maxWireCode : Nat) : Int) := by
        rw [Call.code, answer_of_data? called effect.data, chunkCodeOf_data]
      have above : 0 < call.code := by
        rw [code, maxWireCode]
        omega
      refine ⟨?_, ?_, exhausted, rejected, failed, Or.inl above, fun below => absurd above below⟩
      · rw [effect.written]
        exact ⟨fun _ => ⟨effect.some_bytes, effect.unrefused⟩, fun _ => above⟩
      · intro _
        rw [effect.written]
        exact ⟨code, some_bytes, effect.reads.length_le⟩

/-- The moment of a call, from its outcome. -/
theorem perform_nextChunk (called : s.nextChunk layout m o = (answer, s', m', o')) :
    s.perform layout m (.nextChunk o) =
      { event := .nextChunk o, earlier := s, before := m,
        call? := some { answer, before := o, after := o' }, stream := s', medium := m' } := by
  simp only [perform, called]

/-- Whatever way a call goes, its code tells what it has done. -/
theorem codeTells_nextChunk (s : FullStream) (layout : Layout) (m : Medium) (o : Output) :
    ∃ call, (s.perform layout m (.nextChunk o)).call? = some call ∧
      (s.perform layout m (.nextChunk o)).CodeTells layout s.chunkSize call.code := by
  rcases s.perform_cases layout m (.nextChunk o) with
    ⟨o₁, answer, s', m', o', called, course, eq⟩ | ⟨m', ended, -⟩ | ⟨trouble, planned, -⟩
  · cases called
    rw [eq]
    exact ⟨_, rfl, codeTells_of_effect rfl course.agrees (course.failed_of_writeFails _)
      (course.effect _)⟩
  · cases ended
  · cases planned

end Calls

/-! ### The codes of a run -/

/-- The wire code that the moment has brought. -/
def Moment.code? (moment : Moment) : Option Int := moment.call?.map Call.code

/-- All wire codes, in the order of the calls. -/
def codesOf (moments : List Moment) : List Int := moments.filterMap Moment.code?

/-- A report of data is of some bytes, and of no more than a chunk has. -/
theorem bounds_of_data? {layout : Layout} {moment : Moment} (effect : moment.Effect layout)
    {n : Nat} (reported : moment.data? = some n) : 0 < n ∧ n ≤ moment.earlier.chunkSize := by
  cases effect with
  | nothing effect =>
      rw [effect.data] at reported
      cases reported
  | part effect =>
      rw [effect.data] at reported
      cases reported
  | chunk effect =>
      rw [effect.data] at reported
      cases reported
      exact ⟨List.length_pos_iff.2 effect.some_bytes, effect.reads.length_le⟩

/-- Where a code can hold every count, the positive codes are the counts. -/
theorem positive_codesOf {moments : List Moment}
    (bounds : ∀ moment ∈ moments, ∀ n, moment.data? = some n → 0 < n ∧ n ≤ maxWireCode) :
    (codesOf moments).filter (0 < ·) = (dataOf moments).map (↑) := by
  induction moments with
  | nil => rfl
  | cons moment moments ih =>
      rw [List.forall_mem_cons] at bounds
      obtain ⟨here, behind⟩ := bounds
      have later := ih behind
      cases called : moment.call? with
      | none =>
          have none_reported : moment.data? = none := by rw [Moment.data?, called]; rfl
          have uncoded : moment.code? = none := by rw [Moment.code?, called]; rfl
          rw [codesOf, List.filterMap_cons_none uncoded, dataOf,
            List.filterMap_cons_none none_reported]
          exact later
      | some call =>
          have coded : moment.code? = some call.code := by rw [Moment.code?, called]; rfl
          rw [codesOf, List.filterMap_cons_some coded]
          cases reported : moment.data? with
          | none =>
              have below := chunkCodeOf_neg (ne_data_of_data?_eq_none called reported)
              have unsigned : ¬0 < call.code := Int.lt_asymm below
              rw [dataOf, List.filterMap_cons_none reported,
                List.filter_cons_of_neg (by simpa using unsigned)]
              exact later
          | some n =>
              obtain ⟨some_data, fits⟩ := here n reported
              have code : call.code = (n : Int) := by
                rw [Call.code, answer_of_data? called reported, chunkCodeOf_data,
                  Nat.min_eq_left fits]
              have above : 0 < call.code := by
                rw [code]
                exact Int.ofNat_lt.2 some_data
              rw [dataOf, List.filterMap_cons_some reported,
                List.filter_cons_of_pos (by simpa using above), List.map_cons, code]
              exact congrArg _ later

/-- Where a code can hold the length of a chunk, the positive codes of a run add up to what its
reports do. -/
theorem sum_codesOf {s : FullStream} (fits : s.chunkSize ≤ maxWireCode) (layout : Layout)
    (m : Medium) (events : List Event) :
    ((codesOf (s.run layout m events).moments).filter (0 < ·)).sum =
      ((dataOf (s.run layout m events).moments).sum : Int) := by
  have bounds : ∀ moment ∈ (s.run layout m events).moments, ∀ n, moment.data? = some n →
      0 < n ∧ n ≤ maxWireCode := by
    refine forall_run (fun s' => s'.chunkSize = s.chunkSize) rfl ?_ events
    intro s' m' event sized
    refine ⟨?_, (s'.keeps_perform layout m' event).2.trans sized⟩
    intro n reported
    obtain ⟨some_data, short⟩ := bounds_of_data? (s'.effect_perform layout m' event) reported
    rw [(s'.perform_begins layout m' event).1, sized] at short
    exact ⟨some_data, Nat.le_trans short fits⟩
  rw [positive_codesOf bounds, Nat.cast_list_sum]

end FullStream
end BackupRestore
