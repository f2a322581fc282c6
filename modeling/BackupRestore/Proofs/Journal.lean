/-
Module: BackupRestore.Proofs.Journal
Purpose: What a record writer has written after any calls, in turn or out of turn.
Main exports: Journal, Journal.Accepts, Journal.next, RecordWriter.Keeps, RecordWriter.Stops,
  RecordWriter.Served, RecordWriter.served, RecordWriter.Undisturbed,
  RecordWriter.output_is_journal
-/
import BackupRestore.Proofs.Transfer
import BackupRestore.Proofs.Frames
import BackupRestore.Proofs.Writing

namespace BackupRestore

/-!
The calls alone say what should stand in the output: the frames of the records that are complete,
and the header of one whose value is awaited (`Journal`).  A writer knows less, the length that is
awaited and a count, but as long as its output takes what it is offered, both tell the same.  A
call out of turn is refused before a byte is written, so it leaves the two as they are; and if the
output fails within a call, it has a beginning of what the call adds to the journal.
-/

/-- The announcement of a record whose value is awaited. -/
structure Announced where
  key : List UInt8
  valueLength : Nat
deriving Repr, Inhabited, DecidableEq

/-- What has been handed over to a writer: records, and perhaps the announcement of another. -/
structure Journal where
  complete : List Record := []
  pending : Option Announced := none
deriving Repr, Inhabited, DecidableEq

/-- The bytes that a call adds if it is in turn. -/
def SinkCall.block : SinkCall → List UInt8
  | .header key valueLength => Record.headerBlock key valueLength
  | .data value => Record.dataBlock value

namespace Journal

/-- The bytes by which the journal is written down. -/
def bytes (j : Journal) : List UInt8 :=
  j.complete.flatMap Record.frame ++
    (j.pending.map fun a => Record.headerBlock a.key a.valueLength).getD []

/-- The call is in turn: an announcement that a header can express, while no value is awaited, or
the value that has been announced. -/
inductive Accepts (j : Journal) : SinkCall → Prop where
  | header {key : List UInt8} {valueLength : Nat} (idle : j.pending = none)
      (key_fits : key.length < Record.lengthBound) (value_fits : valueLength < Record.lengthBound) :
      Accepts j (.header key valueLength)
  | data {a : Announced} {value : List UInt8} (awaited : j.pending = some a)
      (as_announced : value.length = a.valueLength) : Accepts j (.data value)

/-- The journal after a call that is in turn. -/
def next (j : Journal) : SinkCall → Journal
  | .header key valueLength => { j with pending := some { key, valueLength } }
  | .data value =>
      match j.pending with
      | some a => { complete := j.complete ++ [{ key := a.key, value }], pending := none }
      | none => j

/-- A call in turn adds its block at the end. -/
theorem bytes_next {j : Journal} {c : SinkCall} (in_turn : j.Accepts c) :
    (j.next c).bytes = j.bytes ++ c.block := by
  cases in_turn with
  | header idle _ _ => simp [next, bytes, idle, SinkCall.block]
  | data awaited as_announced =>
      simp [next, bytes, awaited, SinkCall.block, Record.frame, as_announced]

end Journal

/-- Every block is filled up to a multiple of four bytes. -/
theorem SinkCall.four_dvd_length_block (c : SinkCall) : 4 ∣ c.block.length := by
  cases c with
  | header key valueLength =>
      have filled := Record.padLength_dvd (key.length + 1)
      simp only [block, Record.headerBlock, List.length_append, List.length_cons,
        Record.length_fixedHeader, Record.length_padding, Record.headerLength]
      omega
  | data value =>
      have filled := Record.padLength_dvd value.length
      simp only [block, Record.dataBlock, List.length_append, Record.length_padding]
      omega

theorem Record.frame_eq_blocks (r : Record) :
    r.frame = (SinkCall.header r.key r.value.length).block ++ (SinkCall.data r.value).block := rfl

theorem Journal.four_dvd_length_bytes (j : Journal) : 4 ∣ j.bytes.length := by
  obtain ⟨complete, pending⟩ := j
  rw [Journal.bytes, List.length_append]
  apply Nat.dvd_add
  · induction complete with
    | nil => exact Nat.dvd_zero 4
    | cons r complete ih =>
        rw [List.flatMap_cons, List.length_append, r.frame_eq_blocks, List.length_append]
        exact Nat.dvd_add (Nat.dvd_add (SinkCall.four_dvd_length_block _)
          (SinkCall.four_dvd_length_block _)) ih
  · cases pending with
    | none => exact Nat.dvd_zero 4
    | some a => exact SinkCall.four_dvd_length_block (.header a.key a.valueLength)

namespace RecordWriter

/-! ### One call -/

/-- The output has the journal behind what it had before, and the writer knows what it must of
it. -/
structure Keeps (w : RecordWriter) (before : List UInt8) (j : Journal) : Prop where
  taken : w.output.taken = before ++ j.bytes
  pending : w.pending = j.pending.map Announced.valueLength
  records : w.records = j.complete.length

/-- The call fails with the output, at a write or when its block is to be passed on: a beginning of
the block is taken, and nothing else has changed. -/
structure Stops (w : RecordWriter) (c : SinkCall) (cause : IoError) (w' : RecordWriter) :
    Prop where
  answer : c.deliver w = (.error cause, w')
  output : ∃ n, w.output.Stops c.block n cause w'.output ∧ n ≤ c.block.length ∧
    w'.output.taken = w.output.taken ++ c.block.take n
  pending : w'.pending = w.pending
  records : w'.records = w.records

/-- How a call ends. -/
inductive Served (w : RecordWriter) (before : List UInt8) (j : Journal) (c : SinkCall) : Prop where
  /-- It is out of turn, and nothing has happened. -/
  | refused (cause : IoError) (out_of_turn : ¬ j.Accepts c)
      (answer : c.deliver w = (.error cause, w)) (invalid : cause.kind = .invalidInput)
  /-- It is in turn, and its block is written.  An output that does not fail remains so. -/
  | done (w' : RecordWriter) (in_turn : j.Accepts c) (answer : c.deliver w = (.ok (), w'))
      (keeps : w'.Keeps before (j.next c))
      (unfailing : w.output.Unfailing → w'.output.Unfailing)
  /-- It is in turn, and fails with the output. -/
  | failed (cause : IoError) (w' : RecordWriter) (in_turn : j.Accepts c)
      (stops : w.Stops c cause w')

/-- A call of which the block stops the output, and which leaves the rest as it is, fails. -/
theorem stops_of_output {w : RecordWriter} {c : SinkCall} {cause : IoError} {o' : Output} {n : Nat}
    (answer : c.deliver w = (.error cause, { w with output := o' }))
    (stops : w.output.Stops c.block n cause o') : w.Stops c cause { w with output := o' } :=
  ⟨answer, ⟨n, stops, stops.length_le, stops.taken⟩, rfl, rfl⟩

/-- Blocks that are offered in turn are taken as one piece is, or the output fails at one. -/
theorem writeBlocks_cases (o : Output) (blocks : List (List UInt8)) :
    (∃ o', writeBlocks o blocks = (.ok (), o') ∧ o.TakesUp blocks.flatten o') ∨
    (∃ cause o₁ o' n, writeBlocks o blocks = (.error cause, o') ∧ n < blocks.flatten.length ∧
      o.TakesUp (blocks.flatten.take n) o₁ ∧ o₁.Refuses (blocks.flatten.drop n) cause o') := by
  induction blocks generalizing o with
  | nil => exact .inl ⟨o, rfl, .nil o⟩
  | cons block blocks ih =>
      rw [List.flatten_cons, List.length_append]
      rcases o.writeAll_takes_or_refuses block with
        ⟨o₁, all, takes⟩ | ⟨cause, o₁, o', n, failed, within, takes, refuses⟩
      · rcases ih o₁ with
          ⟨o', rest, takes'⟩ | ⟨cause, o₂, o', n, failed, within, takes', refuses⟩
        · refine .inl ⟨o', ?_, takes.append takes'⟩
          simp only [writeBlocks, all, rest]
        · refine .inr ⟨cause, o₂, o', block.length + n, ?_, Nat.add_lt_add_left within _, ?_, ?_⟩
          · simp only [writeBlocks, all, failed]
          · rw [List.take_length_add_append]
            exact takes.append takes'
          · rwa [List.drop_length_add_append]
      · refine .inr ⟨cause, o₁, o', n, ?_, Nat.lt_add_right _ within, ?_, ?_⟩
        · simp only [writeBlocks, failed]
        · rwa [List.take_append_of_le_length (Nat.le_of_lt within)]
        · rw [List.drop_append_of_le_length (Nat.le_of_lt within)]
          exact refuses.append _

theorem served_header {w : RecordWriter} {before : List UInt8} {j : Journal}
    (keeps : w.Keeps before j) (key : List UInt8) (valueLength : Nat) :
    w.Served before j (.header key valueLength) := by
  by_cases idle : j.pending = none
  · have waiting : w.pending = none := by rw [keeps.pending, idle, Option.map_none]
    by_cases key_fits : key.length < Record.lengthBound
    · by_cases value_fits : valueLength < Record.lengthBound
      · have in_turn : j.Accepts (.header key valueLength) := .header idle key_fits value_fits
        have blocks : [Record.fixedHeader key.length valueLength, key, [0],
            Record.padding (key.length + 1)].flatten =
              (SinkCall.header key valueLength).block := by
          simp [SinkCall.block, Record.headerBlock]
        rcases writeBlocks_cases w.output [Record.fixedHeader key.length valueLength, key, [0],
            Record.padding (key.length + 1)] with
          ⟨o', written, takes⟩ | ⟨cause, o₁, o', n, stopped, within, takes, refuses⟩
        · rw [blocks] at takes
          refine .done { w with output := o', pending := some valueLength } in_turn ?_ ?_
            takes.unfailing
          · simp [SinkCall.deliver, RecordSink.header, writeHeader, waiting,
              Nat.not_le.2 key_fits, Nat.not_le.2 value_fits, written]
          · constructor
            · rw [takes.taken, keeps.taken, List.append_assoc, Journal.bytes_next in_turn]
            · rfl
            · exact keeps.records
        · rw [blocks] at within takes refuses
          refine .failed cause _ in_turn (stops_of_output ?_ (.write within takes refuses))
          simp [SinkCall.deliver, RecordSink.header, writeHeader, waiting,
            Nat.not_le.2 key_fits, Nat.not_le.2 value_fits, stopped]
      · refine .refused .dataTooLong ?_ ?_ rfl
        · rintro ⟨-, -, fits⟩
          exact value_fits fits
        · simp [SinkCall.deliver, RecordSink.header, writeHeader, waiting,
            Nat.not_le.2 key_fits, Nat.not_lt.1 value_fits]
    · refine .refused .keyTooLong ?_ ?_ rfl
      · rintro ⟨-, fits, -⟩
        exact key_fits fits
      · simp [SinkCall.deliver, RecordSink.header, writeHeader, waiting, Nat.not_lt.1 key_fits]
  · refine .refused .headerPending ?_ ?_ rfl
    · rintro ⟨none_pending, -, -⟩
      exact idle none_pending
    · simp [SinkCall.deliver, RecordSink.header, writeHeader, keeps.pending,
        Option.isSome_iff_ne_none, idle]

theorem served_data {w : RecordWriter} {before : List UInt8} {j : Journal}
    (keeps : w.Keeps before j) (value : List UInt8) : w.Served before j (.data value) := by
  cases awaited : j.pending with
  | none =>
      have waiting : w.pending = none := by rw [keeps.pending, awaited, Option.map_none]
      refine .refused .headerMissing ?_ ?_ rfl
      · intro in_turn
        cases in_turn with
        | data announced _ =>
            rw [awaited] at announced
            cases announced
      · simp [SinkCall.deliver, RecordSink.data, writeData, waiting]
  | some a =>
      have waiting : w.pending = some a.valueLength := by
        rw [keeps.pending, awaited, Option.map_some]
      by_cases as_announced : value.length = a.valueLength
      · have in_turn : j.Accepts (.data value) := .data awaited as_announced
        have blocks : [value, Record.padding value.length].flatten =
            (SinkCall.data value).block := by
          simp [SinkCall.block, Record.dataBlock]
        rcases writeBlocks_cases w.output [value, Record.padding value.length] with
          ⟨o', written, takes⟩ | ⟨cause, o₁, o', n, stopped, within, takes, refuses⟩
        · rw [blocks] at takes
          rcases flush : o'.flush with ⟨cause | done, o''⟩
          · refine .failed cause _ in_turn (stops_of_output ?_ (.flush takes flush))
            simp [SinkCall.deliver, RecordSink.data, writeData, waiting, as_announced.symm,
              written, flush]
          · have flushed := o'.taken_flush
            rw [flush] at flushed
            refine .done { output := o'', pending := none, records := w.records + 1 } in_turn
              ?_ ?_ ?_
            · simp [SinkCall.deliver, RecordSink.data, writeData, waiting, as_announced.symm,
                written, flush]
            · constructor
              · rw [Journal.bytes_next in_turn, ← List.append_assoc, ← keeps.taken, ← takes.taken]
                exact flushed
              · simp [Journal.next, awaited]
              · simp [Journal.next, awaited, keeps.records]
            · intro unfailing
              obtain ⟨o₂, eq, kept, -⟩ :=
                Output.flush_of_unfailing (takes.unfailing unfailing)
              rw [flush] at eq
              cases eq
              exact kept
        · rw [blocks] at within takes refuses
          refine .failed cause _ in_turn (stops_of_output ?_ (.write within takes refuses))
          simp [SinkCall.deliver, RecordSink.data, writeData, waiting, as_announced.symm, stopped]
      · refine .refused (.lengthMismatch value.length a.valueLength) ?_ ?_ rfl
        · intro in_turn
          cases in_turn with
          | data announced same =>
              rw [awaited] at announced
              cases announced
              exact as_announced same
        · simp [SinkCall.deliver, RecordSink.data, writeData, waiting, Ne.symm as_announced]

/-- Every call is refused as it stands, or written, or ends with the output. -/
theorem served {w : RecordWriter} {before : List UInt8} {j : Journal} (keeps : w.Keeps before j)
    (c : SinkCall) : w.Served before j c := by
  cases c with
  | header key valueLength => exact served_header keeps key valueLength
  | data value => exact served_data keeps value

/-! ### Any calls -/

/-- After these calls the output has not failed yet: of a call in turn it has taken all. -/
inductive Undisturbed : RecordWriter → Journal → List SinkCall → RecordWriter → Journal → Prop where
  | nil (w : RecordWriter) (j : Journal) : Undisturbed w j [] w j
  | refused {w w' : RecordWriter} {j j' : Journal} {c : SinkCall} {calls : List SinkCall}
      (out_of_turn : ¬ j.Accepts c) (rest : Undisturbed (c.deliver w).2 j calls w' j') :
      Undisturbed w j (c :: calls) w' j'
  | done {w w' : RecordWriter} {j j' : Journal} {c : SinkCall} {calls : List SinkCall}
      (in_turn : j.Accepts c) (answer : (c.deliver w).1 = .ok ())
      (rest : Undisturbed (c.deliver w).2 (j.next c) calls w' j') :
      Undisturbed w j (c :: calls) w' j'

/-- What a writer keeps, it keeps until its output fails. -/
theorem Undisturbed.keeps {w w' : RecordWriter} {before : List UInt8} {j j' : Journal}
    {calls : List SinkCall} (undisturbed : Undisturbed w j calls w' j') (keeps : w.Keeps before j) :
    w'.Keeps before j' := by
  induction undisturbed with
  | nil w j => exact keeps
  | @refused w _ _ _ c _ out_of_turn rest ih =>
      cases served keeps c with
      | refused cause _ answer _ =>
          rw [answer] at ih
          exact ih keeps
      | done _ in_turn _ _ _ => exact absurd in_turn out_of_turn
      | failed _ _ in_turn _ => exact absurd in_turn out_of_turn
  | @done w _ _ _ c _ in_turn answer rest ih =>
      cases served keeps c with
      | refused _ out_of_turn _ _ => exact absurd in_turn out_of_turn
      | done w₁ _ written kept _ =>
          rw [written] at ih
          exact ih kept
      | failed cause w₁ _ stops =>
          rw [stops.answer] at answer
          cases answer

/-- The output has failed not at all, or at a call that is in turn.  Before that, an output that
never fails remains one. -/
theorem exists_undisturbed (w : RecordWriter) (before : List UInt8) (j : Journal)
    (keeps : w.Keeps before j) (calls : List SinkCall) :
    ∃ past ahead w' j', calls = past ++ ahead ∧ Undisturbed w j past w' j' ∧
      (w.output.Unfailing → w'.output.Unfailing) ∧
      ∀ c ∈ ahead.head?, j'.Accepts c ∧ ∃ cause w'', w'.Stops c cause w'' := by
  induction calls generalizing w j with
  | nil => exact ⟨[], [], w, j, rfl, .nil w j, id, by simp⟩
  | cons c calls ih =>
      cases served keeps c with
      | refused cause out_of_turn answer _ =>
          obtain ⟨past, ahead, w', j', rfl, undisturbed, remains, stopped⟩ := ih w j keeps
          have kept : (c.deliver w).2 = w := by rw [answer]
          exact ⟨c :: past, ahead, w', j', rfl, .refused out_of_turn (kept.symm ▸ undisturbed),
            remains, stopped⟩
      | done w₁ in_turn answer kept remains =>
          obtain ⟨past, ahead, w', j', rfl, undisturbed, remains', stopped⟩ :=
            ih w₁ (j.next c) kept
          have same : (c.deliver w).2 = w₁ := by rw [answer]
          exact ⟨c :: past, ahead, w', j', rfl,
            .done in_turn (by rw [answer]) (same.symm ▸ undisturbed),
            fun unfailing => remains' (remains unfailing), stopped⟩
      | failed cause w₁ in_turn stops =>
          refine ⟨[], c :: calls, w, j, rfl, .nil w j, id, ?_⟩
          simp only [List.head?_cons, Option.mem_some_iff, forall_eq']
          exact ⟨in_turn, cause, w₁, stops⟩

/-- An output that never fails does not fail at any call. -/
theorem undisturbed_of_unfailing {w : RecordWriter} {before : List UInt8} {j : Journal}
    (keeps : w.Keeps before j) (unfailing : w.output.Unfailing) (calls : List SinkCall) :
    ∃ w' j', Undisturbed w j calls w' j' := by
  obtain ⟨past, ahead, w', j', rfl, undisturbed, remains, stopped⟩ :=
    exists_undisturbed w before j keeps calls
  cases ahead with
  | nil =>
      rw [List.append_nil]
      exact ⟨w', j', undisturbed⟩
  | cons c later =>
      obtain ⟨-, cause, w'', stops⟩ := stopped c rfl
      obtain ⟨n, stops_output, -⟩ := stops.output
      exact absurd stops_output (remains unfailing).not_stops

/-- A writer's output is its journal.  After any calls during which the output has not failed, it
has taken the frames of the complete records and then the header of the one that is awaited, in
multiples of four bytes, and the writer counts those records.  From there on, a call out of turn
is refused as invalid and changes nothing; a call in turn writes its block, or fails with a write
or a flush of the output, which then has taken a beginning of the block, and the record is not
counted.  Every sequence of calls is such a history, up to the call at which the output first
fails, and on an output that never fails it is one to its end. -/
theorem output_is_journal (o : Output) :
    (∀ calls w j, Undisturbed { output := o } {} calls w j →
      w.output.taken = o.taken ++ j.complete.flatMap Record.frame ++
          (j.pending.map fun a => Record.headerBlock a.key a.valueLength).getD [] ∧
      w.records = j.complete.length ∧
      4 ∣ w.output.taken.length - o.taken.length ∧
      ∀ c : SinkCall,
        (¬ j.Accepts c → ∃ cause, c.deliver w = (.error cause, w) ∧ cause.kind = .invalidInput) ∧
        (j.Accepts c →
          (∃ w', c.deliver w = (.ok (), w') ∧ w'.output.taken = w.output.taken ++ c.block ∧
            w'.Keeps o.taken (j.next c)) ∨
          (∃ cause w', w.Stops c cause w'))) ∧
    (∀ calls, ∃ past ahead w j, calls = past ++ ahead ∧
      Undisturbed { output := o } {} past w j ∧
      ∀ c ∈ ahead.head?, j.Accepts c ∧ ∃ cause w', w.Stops c cause w') ∧
    (o.Unfailing → ∀ calls, ∃ w j, Undisturbed { output := o } {} calls w j) := by
  have fresh : Keeps { output := o } o.taken {} :=
    ⟨(List.append_nil _).symm, rfl, rfl⟩
  refine ⟨?history, ?cut, undisturbed_of_unfailing fresh⟩
  case history =>
    intro calls w j undisturbed
    have keeps := undisturbed.keeps fresh
    refine ⟨?taken, keeps.records, ?blocks, fun c => ⟨?refused, ?served⟩⟩
    case taken =>
      rw [keeps.taken, Journal.bytes, List.append_assoc]
    case blocks =>
      rw [keeps.taken, List.length_append, Nat.add_sub_cancel_left]
      exact j.four_dvd_length_bytes
    case refused =>
      intro out_of_turn
      cases served keeps c with
      | refused cause _ answer invalid => exact ⟨cause, answer, invalid⟩
      | done _ in_turn _ _ _ => exact absurd in_turn out_of_turn
      | failed _ _ in_turn _ => exact absurd in_turn out_of_turn
    case served =>
      intro in_turn
      cases served keeps c with
      | refused _ out_of_turn _ _ => exact absurd in_turn out_of_turn
      | done w' _ answer kept _ =>
          refine .inl ⟨w', answer, ?_, kept⟩
          rw [kept.taken, Journal.bytes_next in_turn, keeps.taken, List.append_assoc]
      | failed cause w' _ stops => exact .inr ⟨cause, w', stops⟩
  case cut =>
    intro calls
    obtain ⟨past, ahead, w, j, rfl, undisturbed, -, stopped⟩ :=
      exists_undisturbed _ o.taken {} fresh calls
    exact ⟨past, ahead, w, j, rfl, undisturbed, stopped⟩

end RecordWriter
end BackupRestore
