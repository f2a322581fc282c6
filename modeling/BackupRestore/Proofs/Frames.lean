/-
Module: BackupRestore.Proofs.Frames
Purpose: What has been written frame by frame is read back record by record.
Main exports: Record.Fits, Record.Framed, RecordReader.readRecord_of_framed, RecordReader.answers,
  RecordReader.script, RecordReader.Tells, RecordReader.answers_of_frames,
  RecordWriter.writeRecords, RecordWriter.writeRecords_of_unfailing,
  RecordReader.answers_give_back_written_records
-/
import BackupRestore.Proofs.Reading
import BackupRestore.Proofs.Writing
import BackupRestore.Record.Reader
import BackupRestore.Record.Writer

namespace BackupRestore

/-!
A frame says how long it is before it says what it holds.  So a reader that has the bytes of a
frame in front of it, with anything behind them, takes just that frame and stands at what is
behind it.  By this one fact the frames of a list of records give the records back one by one.

A writer accepts lengths that a reader does not.  A reader refuses such a frame when it has read
the fixed beginning, and gives nothing more; what stands in front of the frame it has given.
-/

/-! ### Reading bytes that are known -/

namespace Medium

variable {m : Medium} {h : Handle} {bytes later : List UInt8}

/-- Where no read fails, the next bytes are filled in, and what is behind them is left. -/
theorem fill_of_rest (sound : m.delivery.Sound) (ahead : h.rest = bytes ++ later) :
    ∃ h' m', m.fill h bytes.length = (bytes, none, h', m') ∧ m'.delivery.Sound ∧
      h'.rest = later := by
  obtain ⟨d, sound', filled⟩ := fill_of_sound sound h bytes.length
  have some_left : min bytes.length h.available = bytes.length := by
    rw [Handle.available_eq_length, ahead, List.length_append]
    omega
  refine ⟨h.advance bytes.length, { m with delivery := d }, ?_, sound', ?_⟩
  · rw [filled, some_left, Handle.upcoming_eq_take, ahead, List.take_left]
  · rw [Handle.rest_advance, ahead, List.drop_left]

theorem readExactly_of_rest (sound : m.delivery.Sound) (ahead : h.rest = bytes ++ later) :
    ∃ h' m', m.readExactly h bytes.length = (.ok bytes, h', m') ∧ m'.delivery.Sound ∧
      h'.rest = later := by
  obtain ⟨h', m', filled, sound', behind⟩ := fill_of_rest sound ahead
  refine ⟨h', m', ?_, sound', behind⟩
  simp only [readExactly, filled, if_true]

end Medium

namespace Record

/-- A header can state the lengths of the record. -/
structure Fits (r : Record) : Prop where
  key : r.key.length < lengthBound
  value : r.value.length < lengthBound

/-- A reader accepts the lengths of the record. -/
def isAccepted (r : Record) : Bool :=
  r.key.length ≤ maxKeyLength && r.value.length ≤ maxValueLength

theorem isAccepted_eq_false_iff {r : Record} :
    r.isAccepted = false ↔ maxKeyLength < r.key.length ∨ maxValueLength < r.value.length := by
  simp only [isAccepted, Bool.and_eq_false_iff, decide_eq_false_iff_not, Nat.not_le]

theorem length_padding (n : Nat) : (padding n).length = padLength n := List.length_replicate

/-- The bytes are a frame of the record that a reader accepts.  They are those that a writer
spells, but any bytes may fill up the two blocks. -/
structure Framed (r : Record) (frame : List UInt8) : Prop where
  key_within : r.key.length ≤ maxKeyLength
  value_within : r.value.length ≤ maxValueLength
  parts : ∃ keyFilling valueFilling,
    keyFilling.length = padLength (r.key.length + 1) ∧
    valueFilling.length = padLength r.value.length ∧
    frame = fixedHeader r.key.length r.value.length ++ (r.key ++ 0 :: keyFilling) ++
      (r.value ++ valueFilling)

/-- A frame that is written for a record of accepted lengths is a frame of it. -/
theorem framed_frame {r : Record} (accepted : r.isAccepted = true) : r.Framed r.frame := by
  have within := mt isAccepted_eq_false_iff.2 (ne_false_of_eq_true accepted)
  refine ⟨by omega, by omega, padding (r.key.length + 1), padding r.value.length,
    length_padding _, length_padding _, ?_⟩
  simp only [frame, headerBlock, dataBlock, List.append_assoc]

/-- A field is read from where it stands in a block. -/
theorem fieldAt_append (before field after : List UInt8) :
    fieldAt (before ++ field ++ after) before.length field.length = ofLittleEndian field := by
  rw [fieldAt, List.append_assoc, List.drop_left, List.take_left]

/-- The fixed beginning of a frame says what it has been made from. -/
theorem fields_fixedHeader {keyLength valueLength : Nat} (key_fits : keyLength < lengthBound)
    (value_fits : valueLength < lengthBound) :
    fieldAt (fixedHeader keyLength valueLength) 0 4 = magic ∧
      fieldAt (fixedHeader keyLength valueLength) 4 4 = keyLength ∧
      fieldAt (fixedHeader keyLength valueLength) 8 4 = valueLength := by
  have first := fieldAt_append [] (littleEndian 4 magic)
    (littleEndian 4 keyLength ++ littleEndian 4 valueLength)
  have second := fieldAt_append (littleEndian 4 magic) (littleEndian 4 keyLength)
    (littleEndian 4 valueLength)
  have third := fieldAt_append (littleEndian 4 magic ++ littleEndian 4 keyLength)
    (littleEndian 4 valueLength) []
  simp only [List.nil_append, List.append_nil, List.length_append, List.length_nil,
    littleEndian_length, ← List.append_assoc] at first second third
  unfold fixedHeader
  refine ⟨first.trans ?_, second.trans ?_, third.trans ?_⟩
  · exact ofLittleEndian_littleEndian 4 magic (by decide)
  · exact ofLittleEndian_littleEndian 4 keyLength key_fits
  · exact ofLittleEndian_littleEndian 4 valueLength value_fits

theorem length_fixedHeader (keyLength valueLength : Nat) :
    (fixedHeader keyLength valueLength).length = headerLength := by
  simp only [fixedHeader, List.length_append, littleEndian_length]
  rfl

end Record

namespace RecordReader

/-! ### Reading one frame -/

section OneFrame

variable {m : Medium} {h : Handle} {later : List UInt8}

theorem readValue_of_rest (sound : m.delivery.Sound) (key : List UInt8)
    {value filling : List UInt8} (filled : filling.length = Record.padLength value.length)
    (ahead : h.rest = value ++ filling ++ later) :
    ∃ h' m', readValue m h key value.length = (.ok (some { key, value }), h', m') ∧
      m'.delivery.Sound ∧ h'.rest = later := by
  obtain ⟨h', m', read, sound', behind⟩ := Medium.readExactly_of_rest sound ahead
  refine ⟨h', m', ?_, sound', behind⟩
  rw [List.length_append, filled] at read
  simp only [readValue, read, List.take_left]

theorem readKey_of_rest (sound : m.delivery.Sound) (valueLength : Nat)
    {key filling : List UInt8} (filled : filling.length = Record.padLength (key.length + 1))
    (ahead : h.rest = (key ++ 0 :: filling) ++ later) :
    ∃ h' m', readKey m h key.length valueLength = readValue m' h' key valueLength ∧
      m'.delivery.Sound ∧ h'.rest = later := by
  obtain ⟨h', m', read, sound', behind⟩ := Medium.readExactly_of_rest sound ahead
  refine ⟨h', m', ?_, sound', behind⟩
  have length : (key ++ 0 :: filling).length =
      key.length + 1 + Record.padLength (key.length + 1) := by
    rw [List.length_append, List.length_cons, filled]
    omega
  rw [length] at read
  have ends : (key ++ 0 :: filling)[key.length]? = some 0 := by
    rw [List.getElem?_append_right (Nat.le_refl _), Nat.sub_self]
    rfl
  simp only [readKey, read, ends, if_true, List.take_left]

/-- Behind the fixed beginning of a frame, a reader goes on to the key, unless it does not
accept the lengths. -/
theorem readRecord_of_rest (sound : m.delivery.Sound) {keyLength valueLength : Nat}
    (key_fits : keyLength < Record.lengthBound) (value_fits : valueLength < Record.lengthBound)
    (ahead : h.rest = Record.fixedHeader keyLength valueLength ++ later) :
    ∃ h' m', m'.delivery.Sound ∧ h'.rest = later ∧ readRecord m h =
      if Record.maxKeyLength < keyLength ∨ Record.maxValueLength < valueLength then
        (.error .oversizedRecord, h', m')
      else readKey m' h' keyLength valueLength := by
  obtain ⟨h', m', read, sound', behind⟩ := Medium.fill_of_rest sound ahead
  refine ⟨h', m', sound', behind, ?_⟩
  rw [Record.length_fixedHeader] at read
  obtain ⟨magic, key, value⟩ := Record.fields_fixedHeader key_fits value_fits
  have some_there : Record.headerLength ≠ 0 := by decide
  simp only [readRecord, read, Record.length_fixedHeader, magic, key, value, if_neg some_there,
    Nat.lt_irrefl, ne_eq, not_true_eq_false, if_false]

/-- With a frame in front of it, a reader gives its record and stands behind it. -/
theorem readRecord_of_framed (sound : m.delivery.Sound) {r : Record} {frame : List UInt8}
    (framed : r.Framed frame) (ahead : h.rest = frame ++ later) :
    ∃ h' m', m'.delivery.Sound ∧ readRecord m h = (.ok (some r), h', m') ∧ h'.rest = later := by
  obtain ⟨key_within, value_within, keyFilling, valueFilling, key_filled, value_filled, rfl⟩ :=
    framed
  have key_fits : r.key.length < Record.lengthBound := Nat.lt_of_le_of_lt key_within (by decide)
  have value_fits : r.value.length < Record.lengthBound :=
    Nat.lt_of_le_of_lt value_within (by decide)
  rw [List.append_assoc, List.append_assoc] at ahead
  obtain ⟨h₁, m₁, sound₁, behind₁, read⟩ := readRecord_of_rest sound key_fits value_fits ahead
  obtain ⟨h₂, m₂, read_key, sound₂, behind₂⟩ :=
    readKey_of_rest sound₁ r.value.length key_filled behind₁
  obtain ⟨h₃, m₃, read_value, sound₃, behind₃⟩ :=
    readValue_of_rest sound₂ r.key value_filled behind₂
  refine ⟨h₃, m₃, sound₃, ?_, behind₃⟩
  rw [read, if_neg (by omega), read_key, read_value]

/-- With a written frame in front of it, a reader gives its record and stands behind it, or
refuses a record of which it does not accept the lengths. -/
theorem readRecord_of_frame (sound : m.delivery.Sound) {r : Record} (fits : r.Fits)
    (ahead : h.rest = r.frame ++ later) :
    ∃ h' m', m'.delivery.Sound ∧
      if r.isAccepted then readRecord m h = (.ok (some r), h', m') ∧ h'.rest = later
      else readRecord m h = (.error .oversizedRecord, h', m') := by
  cases accepted : r.isAccepted with
  | false =>
      rw [Record.isAccepted_eq_false_iff] at accepted
      simp only [Record.frame, Record.headerBlock, List.append_assoc] at ahead
      obtain ⟨h₁, m₁, sound₁, -, read⟩ := readRecord_of_rest sound fits.key fits.value ahead
      rw [if_pos accepted] at read
      exact ⟨h₁, m₁, sound₁, read⟩
  | true => exact readRecord_of_framed sound (Record.framed_frame accepted) ahead

theorem readRecord_of_end (sound : m.delivery.Sound) (nothing : h.rest = []) :
    ∃ h' m', readRecord m h = (.ok none, h', m') := by
  obtain ⟨d, -, filled⟩ := Medium.fill_of_sound sound h Record.headerLength
  rw [Handle.upcoming_eq_take, nothing, List.take_nil] at filled
  refine ⟨h.advance (min Record.headerLength h.available), { m with delivery := d }, ?_⟩
  simp only [readRecord, filled, List.length_nil, if_true]

end OneFrame

/-! ### Reading on -/

/-- What the next `n` calls of a reader answer. -/
def answers (r : RecordReader) : (n : Nat) → List (Option (Except IoError Record))
  | 0 => []
  | n + 1 => r.next.1 :: r.next.2.answers n

/-- What there is to hear of some written records: those in front of the first that is not
accepted, and then that one is not. -/
def script (records : List Record) : List (Except IoError Record) :=
  (records.takeWhile Record.isAccepted).map .ok ++
    if records.all Record.isAccepted then [] else [.error .oversizedRecord]

theorem script_cons (r : Record) (records : List Record) :
    script (r :: records) =
      if r.isAccepted then .ok r :: script records else [.error .oversizedRecord] := by
  unfold script
  cases accepted : r.isAccepted <;> simp [accepted]

/-- The answers of a reader that has something to say and then no more. -/
theorem map_range_getElem?_cons {α : Type} (first : α) (later : List α) (n : Nat) :
    ((List.range (n + 1)).map fun i => (first :: later)[i]?) =
      some first :: (List.range n).map fun i => later[i]? := by
  rw [List.range_succ_eq_map, List.map_cons, List.map_map]
  rfl

theorem map_range_getElem?_nil {α : Type} (n : Nat) :
    ((List.range n).map fun i => ([] : List α)[i]?) = List.replicate n none := by
  simp only [List.getElem?_nil, List.map_const', List.length_range]

theorem answers_of_done {r : RecordReader} (done : r.done = true) (n : Nat) :
    r.answers n = List.replicate n none := by
  have next : r.next = (none, r) := by rw [RecordReader.next, if_pos done]
  induction n with
  | zero => rfl
  | succ n ih => rw [answers, next, ih, List.replicate_succ]

/-- The reader tells all of this, and then nothing more. -/
def Tells (r : RecordReader) (script : List (Except IoError Record)) : Prop :=
  ∀ n, r.answers n = (List.range n).map fun i => script[i]?

section Telling

variable {r : RecordReader} {h : Handle} {m : Medium}

/-- A reader at the end of its bytes has nothing to tell. -/
theorem tells_of_end (undone : r.done = false)
    (read : readRecord r.medium r.handle = (.ok none, h, m)) : r.Tells [] := by
  have next : r.next = (none, { handle := h, medium := m, done := true }) := by
    simp only [RecordReader.next, undone, Bool.false_eq_true, if_false, read]
  intro n
  rw [map_range_getElem?_nil]
  cases n with
  | zero => rfl
  | succ n => rw [answers, next, answers_of_done rfl, ← List.replicate_succ]

/-- A reader that fails tells of the failure, and that is the end. -/
theorem tells_of_failure (undone : r.done = false) {cause : IoError}
    (read : readRecord r.medium r.handle = (.error cause, h, m)) : r.Tells [.error cause] := by
  have next : r.next = (some (.error cause), { handle := h, medium := m, done := true }) := by
    simp only [RecordReader.next, undone, Bool.false_eq_true, if_false, read]
  intro n
  cases n with
  | zero => rfl
  | succ n =>
      rw [answers, next, answers_of_done rfl, map_range_getElem?_cons, map_range_getElem?_nil]

/-- A reader that finds a record gives it, and goes on behind it. -/
theorem tells_of_record (undone : r.done = false) {record : Record}
    {script : List (Except IoError Record)}
    (read : readRecord r.medium r.handle = (.ok (some record), h, m))
    (later : ({ r with handle := h, medium := m } : RecordReader).Tells script) :
    r.Tells (.ok record :: script) := by
  have next : r.next = (some (.ok record), { r with handle := h, medium := m }) := by
    simp only [RecordReader.next, undone, Bool.false_eq_true, if_false, read]
  intro n
  cases n with
  | zero => rfl
  | succ n => rw [answers, next, later n, map_range_getElem?_cons]

end Telling

/-- A reader with the frames of some records in front of it, and nothing else, gives them back. -/
theorem answers_of_frames {r : RecordReader} {records : List Record}
    (fit : ∀ record ∈ records, record.Fits) (undone : r.done = false)
    (sound : r.medium.delivery.Sound) (ahead : r.handle.rest = records.flatMap Record.frame) :
    r.Tells (script records) := by
  induction records generalizing r with
  | nil =>
      obtain ⟨h, m, read⟩ := readRecord_of_end sound ahead
      exact tells_of_end undone read
  | cons record records ih =>
      rw [List.flatMap_cons] at ahead
      obtain ⟨h, m, sound', read⟩ :=
        readRecord_of_frame sound (fit record List.mem_cons_self) ahead
      rw [script_cons]
      cases accepted : record.isAccepted with
      | false =>
          simp only [accepted, Bool.false_eq_true, if_false] at read
          exact tells_of_failure undone read
      | true =>
          simp only [accepted, if_true] at read
          have later : ({ r with handle := h, medium := m } : RecordReader).Tells
              (script records) :=
            ih (fun other member => fit other (List.mem_cons_of_mem _ member)) undone sound' read.2
          exact tells_of_record undone read.1 later

end RecordReader

/-! ### Writing -/

namespace RecordWriter

/-- Write one record: its header, and then its value. -/
def writeRecord (w : RecordWriter) (r : Record) : Except IoError Unit × RecordWriter :=
  match w.writeHeader r.key r.value.length with
  | (.error cause, w) => (.error cause, w)
  | (.ok _, w) => w.writeData r.value

/-- Write records one after the other, up to the first that cannot be written. -/
def writeRecords (w : RecordWriter) : List Record → Except IoError Unit × RecordWriter
  | [] => (.ok (), w)
  | r :: rest =>
      match w.writeRecord r with
      | (.error cause, w) => (.error cause, w)
      | (.ok _, w) => w.writeRecords rest

theorem writeBlocks_of_unfailing {o : Output} (unfailing : o.Unfailing)
    (blocks : List (List UInt8)) :
    ∃ o', writeBlocks o blocks = (.ok (), o') ∧ o'.Unfailing ∧
      o'.taken = o.taken ++ blocks.flatten := by
  induction blocks generalizing o with
  | nil => exact ⟨o, rfl, unfailing, (List.append_nil _).symm⟩
  | cons block blocks ih =>
      obtain ⟨o₁, written, unfailing₁, taken₁⟩ := Output.writeAll_of_unfailing unfailing block
      obtain ⟨o₂, later, unfailing₂, taken₂⟩ := ih unfailing₁
      refine ⟨o₂, ?_, unfailing₂, ?_⟩
      · rw [writeBlocks, written]
        exact later
      · rw [taken₂, taken₁, List.append_assoc, List.flatten_cons]

/-- A writer that awaits no value and whose output never fails writes the frame of a record. -/
theorem writeRecord_of_unfailing {w : RecordWriter} (unfailing : w.output.Unfailing)
    (idle : w.pending = none) {r : Record} (fits : r.Fits) :
    ∃ o, w.writeRecord r = (.ok (), { output := o, pending := none, records := w.records + 1 }) ∧
      o.Unfailing ∧ o.taken = w.output.taken ++ r.frame := by
  obtain ⟨o₁, header, unfailing₁, taken₁⟩ := writeBlocks_of_unfailing unfailing
    [Record.fixedHeader r.key.length r.value.length, r.key, [0],
      Record.padding (r.key.length + 1)]
  obtain ⟨o₂, value, unfailing₂, taken₂⟩ := writeBlocks_of_unfailing unfailing₁
    [r.value, Record.padding r.value.length]
  obtain ⟨o₃, flushed, unfailing₃, taken₃⟩ := Output.flush_of_unfailing unfailing₂
  refine ⟨o₃, ?_, unfailing₃, ?_⟩
  · have key_fits := Nat.not_le.2 fits.key
    have value_fits := Nat.not_le.2 fits.value
    simp only [writeRecord, writeHeader, idle, Option.isSome_none, Bool.false_eq_true, if_false,
      key_fits, value_fits, header, writeData, ne_eq, not_true_eq_false, value, flushed]
  · rw [taken₃, taken₂, taken₁, List.append_assoc]
    simp [Record.frame, Record.headerBlock, Record.dataBlock]

theorem writeRecords_of_unfailing {w : RecordWriter} (unfailing : w.output.Unfailing)
    (idle : w.pending = none) {records : List Record} (fit : ∀ r ∈ records, r.Fits) :
    ∃ o, w.writeRecords records =
        (.ok (), { output := o, pending := none, records := w.records + records.length }) ∧
      o.taken = w.output.taken ++ records.flatMap Record.frame := by
  induction records generalizing w with
  | nil =>
      refine ⟨w.output, ?_, (List.append_nil _).symm⟩
      obtain ⟨output, pending, count⟩ := w
      subst idle
      rfl
  | cons r records ih =>
      obtain ⟨o₁, first, unfailing₁, taken₁⟩ :=
        writeRecord_of_unfailing unfailing idle (fit r List.mem_cons_self)
      obtain ⟨o₂, later, taken₂⟩ := ih (w := { output := o₁, records := w.records + 1 })
        unfailing₁ rfl fun other member => fit other (List.mem_cons_of_mem _ member)
      refine ⟨o₂, ?_, ?_⟩
      · rw [writeRecords, first, List.length_cons, Nat.add_comm records.length, ← Nat.add_assoc]
        exact later
      · rw [taken₂, taken₁, List.append_assoc, List.flatMap_cons]

end RecordWriter

namespace RecordReader

/-- Records that are written to an output that never fails, in whatever portions it takes them,
are read back in their order, in whatever pieces they come, up to the first that is longer than
a reader accepts.  That one is answered with one failure.  Then there is nothing more. -/
theorem answers_give_back_written_records {o : Output} (unfailing : o.Unfailing)
    (empty : o.taken = []) {records : List Record} (fit : ∀ r ∈ records, r.Fits) :
    ∃ w, ({ output := o } : RecordWriter).writeRecords records = (.ok (), w) ∧
      w.pending = none ∧ w.records = records.length ∧
      w.output.taken = records.flatMap Record.frame ∧
      IoError.oversizedRecord.kind = .invalidData ∧
      ∀ delivery : Delivery, delivery.Sound → ∀ n,
        (ofContent w.output.taken.toArray delivery).answers n =
          (List.range n).map fun i => (script records)[i]? := by
  obtain ⟨o', written, taken⟩ :=
    RecordWriter.writeRecords_of_unfailing (w := { output := o }) unfailing rfl fit
  have frames : o'.taken = records.flatMap Record.frame := by
    rw [taken]
    exact congrArg (· ++ _) empty
  refine ⟨_, written, rfl, Nat.zero_add _, frames, rfl, ?_⟩
  intro delivery sound n
  apply answers_of_frames fit
  · rfl
  · exact sound
  · exact frames

/-- Of three records, the second with a key that is one byte too long, the first is read back and
the second refused, where every write takes one byte and every read brings one, and the first
read is interrupted. -/
theorem answers_give_back_written_records_of_sample :
    let o : Output := { onWrite := fun _ _ _ => .ok 1, onFlush := fun _ => none }
    let delivery : Delivery := { fates := [.interrupted], extraAtMost := some 0 }
    let short : Record := { key := [107], value := [118, 119] }
    let long : Record := { key := List.replicate 65537 107, value := [] }
    o.Unfailing ∧ o.taken = [] ∧ (∀ r ∈ [short, long, short], r.Fits) ∧ delivery.Sound ∧
      ∃ w, ({ output := o } : RecordWriter).writeRecords [short, long, short] = (.ok (), w) ∧
        ∀ n, (ofContent w.output.taken.toArray delivery).answers n =
          (List.range n).map fun i => [.ok short, .error .oversizedRecord][i]? := by
  intro o delivery short long
  have unfailing : o.Unfailing :=
    ⟨fun _ _ offered some_offered => ⟨1, Nat.one_pos, some_offered, rfl⟩, fun _ => rfl⟩
  have sound : delivery.Sound := ⟨rfl, by simp [delivery]⟩
  have fits : short.Fits := ⟨by decide, by decide⟩
  have long_fits : long.Fits := by
    refine ⟨?_, by decide⟩
    rw [List.length_replicate]
    decide
  have fit : ∀ r ∈ [short, long, short], r.Fits := by
    intro r member
    simp only [List.mem_cons, List.not_mem_nil, or_false] at member
    rcases member with rfl | rfl | rfl
    · exact fits
    · exact long_fits
    · exact fits
  have refused : long.isAccepted = false := by
    rw [Record.isAccepted_eq_false_iff, List.length_replicate]
    exact Or.inl (by decide)
  obtain ⟨w, written, -, -, -, -, answers⟩ :=
    answers_give_back_written_records unfailing rfl fit
  have heard : script [short, long, short] = [.ok short, .error .oversizedRecord] := by
    rw [script_cons, script_cons, refused]
    rfl
  rw [heard] at answers
  exact ⟨unfailing, rfl, fit, sound, w, written, answers delivery sound⟩

end RecordReader
end BackupRestore
