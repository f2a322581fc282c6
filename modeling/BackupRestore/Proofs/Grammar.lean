/-
Module: BackupRestore.Proofs.Grammar
Purpose: Which bytes a reader of frames accepts, and with what it answers those that it does not.
Main exports: Record.FrameRun, Record.LongestRun, Record.Unframed, Record.framed_or_unframed,
  RecordReader.readRecord_of_unframed, RecordReader.tells_of_run,
  RecordReader.answers_follow_longest_run
-/
import BackupRestore.Proofs.Frames
import Mathlib.Data.Nat.Find

namespace BackupRestore

/-!
Any bytes at all begin with frames, perhaps with none, and something is left that does not begin
with a frame.  What is left is empty or breaks the rules of a frame in one of six ways
(`Record.Unframed`), which are told apart in the order in which a reader comes to them: each
way says that the rules before it are kept.

A reader gives the records of those frames, then the fault of what is left.  That the run of
frames is the longest has not to be looked for: behind a longer one, the bytes that are left here
would begin with a frame.
-/

namespace Record

/-! ### Runs of frames -/

/-- Some bytes begin with frames of these records, one behind the other, and the last bytes are
left behind them. -/
inductive FrameRun : List UInt8 → List Record → List UInt8 → Prop where
  | nothing (bytes : List UInt8) : FrameRun bytes [] bytes
  | frame {r : Record} {frame bytes left : List UInt8} {records : List Record}
      (framed : r.Framed frame) (rest : FrameRun bytes records left) :
      FrameRun (frame ++ bytes) (r :: records) left

/-- The run of frames is the longest with which the bytes begin. -/
structure LongestRun (bytes : List UInt8) (records : List Record) (left : List UInt8) : Prop where
  run : FrameRun bytes records left
  longest : ∀ {records' left'}, FrameRun bytes records' left' → records'.length ≤ records.length

/-- Every record of a run stands in the bytes, with all of a frame. -/
theorem FrameRun.present {bytes left : List UInt8} {records : List Record}
    (run : FrameRun bytes records left) :
    ∀ r ∈ records, ∃ before frame after, bytes = before ++ frame ++ after ∧ r.Framed frame := by
  induction run with
  | nothing bytes =>
      intro r member
      cases member
  | @frame r frame bytes left records framed rest ih =>
      intro other member
      rcases List.mem_cons.1 member with rfl | behind
      · exact ⟨[], frame, bytes, rfl, framed⟩
      · obtain ⟨before, frame', after, split, framed'⟩ := ih other behind
        refine ⟨frame ++ before, frame', after, ?_, framed'⟩
        rw [split]
        simp only [List.append_assoc]

/-- A run can be carried on by a frame with which what is left begins. -/
theorem FrameRun.concat {bytes frame later : List UInt8} {records : List Record} {r : Record}
    (run : FrameRun bytes records (frame ++ later)) (framed : r.Framed frame) :
    FrameRun bytes (records ++ [r]) later := by
  generalize atEnd : frame ++ later = left at run
  induction run with
  | nothing bytes =>
      subst atEnd
      exact .frame framed (.nothing later)
  | frame framed' rest ih => exact .frame framed' (ih atEnd)

/-- Behind the longest run, no frame begins. -/
theorem LongestRun.unframed {bytes left : List UInt8} {records : List Record}
    (run : LongestRun bytes records left) {r : Record} {frame later : List UInt8}
    (framed : r.Framed frame) : left ≠ frame ++ later := by
  rintro rfl
  have carried := run.longest (run.run.concat framed)
  rw [List.length_append, List.length_singleton] at carried
  omega

theorem Framed.length_pos {r : Record} {frame : List UInt8} (framed : r.Framed frame) :
    0 < frame.length := by
  obtain ⟨_, _, keyFilling, valueFilling, _, _, rfl⟩ := framed
  simp only [List.length_append, length_fixedHeader]
  exact Nat.lt_of_lt_of_le (by decide : 0 < headerLength) (by omega)

theorem FrameRun.length_le {bytes left : List UInt8} {records : List Record}
    (run : FrameRun bytes records left) : records.length ≤ bytes.length := by
  induction run with
  | nothing bytes => exact Nat.zero_le _
  | frame framed rest ih =>
      have := framed.length_pos
      rw [List.length_cons, List.length_append]
      omega

/-- There is a longest run: every frame takes up bytes. -/
theorem exists_longestRun (bytes : List UInt8) :
    ∃ records left, LongestRun bytes records left := by
  let frames (n : Nat) : Prop := ∃ records left, FrameRun bytes records left ∧ records.length = n
  have bounded : ∀ n, frames n → n ≤ bytes.length := by
    rintro n ⟨records, left, run, rfl⟩
    exact run.length_le
  classical
  have most : frames (Nat.findGreatest frames bytes.length) :=
    Nat.findGreatest_spec (Nat.zero_le _) ⟨[], bytes, .nothing bytes, rfl⟩
  obtain ⟨records, left, run, length⟩ := most
  refine ⟨records, left, run, ?_⟩
  intro records' left' run'
  rw [length]
  exact Nat.le_findGreatest (bounded _ ⟨records', left', run', rfl⟩) ⟨records', left', run', rfl⟩

/-! ### What is no frame -/

/-- Some bytes, of which there are any, do not begin with a frame, for this cause. -/
inductive Unframed : List UInt8 → IoError → Prop where
  /-- There are fewer bytes than the fixed beginning has. -/
  | truncated {bytes : List UInt8} (some_left : bytes ≠ []) (short : bytes.length < headerLength) :
      Unframed bytes .truncatedHeader
  /-- The fixed beginning is there, with another number in front. -/
  | unsigned {header later : List UInt8} (whole : header.length = headerLength)
      (other : fieldAt header 0 4 ≠ magic) :
      Unframed (header ++ later) (.badMagic (fieldAt header 0 4))
  /-- It declares a length that is not accepted. -/
  | oversized {keyLength valueLength : Nat} {later : List UInt8}
      (key_fits : keyLength < lengthBound) (value_fits : valueLength < lengthBound)
      (beyond : maxKeyLength < keyLength ∨ maxValueLength < valueLength) :
      Unframed (fixedHeader keyLength valueLength ++ later) .oversizedRecord
  /-- The block of the key is not all there. -/
  | keyCut {keyLength valueLength : Nat} {later : List UInt8}
      (key_within : keyLength ≤ maxKeyLength) (value_within : valueLength ≤ maxValueLength)
      (short : later.length < keyLength + 1 + padLength (keyLength + 1)) :
      Unframed (fixedHeader keyLength valueLength ++ later) .cutShort
  /-- The block of the key is there, and the byte behind the key is not zero. -/
  | unterminated {key filling later : List UInt8} {final : UInt8} {valueLength : Nat}
      (key_within : key.length ≤ maxKeyLength) (value_within : valueLength ≤ maxValueLength)
      (filled : filling.length = padLength (key.length + 1)) (other : final ≠ 0) :
      Unframed (fixedHeader key.length valueLength ++ ((key ++ final :: filling) ++ later))
        .unterminatedKey
  /-- The block of the key is there, and the block of the value is not all there. -/
  | valueCut {key filling later : List UInt8} {valueLength : Nat}
      (key_within : key.length ≤ maxKeyLength) (value_within : valueLength ≤ maxValueLength)
      (filled : filling.length = padLength (key.length + 1))
      (short : later.length < valueLength + padLength valueLength) :
      Unframed (fixedHeader key.length valueLength ++ ((key ++ 0 :: filling) ++ later)) .cutShort

/-- A block that is cut short is told apart from bytes that are wrong. -/
theorem Unframed.kind {bytes : List UInt8} {cause : IoError} (unframed : Unframed bytes cause) :
    cause.kind = if cause = .cutShort then .unexpectedEof else .invalidData := by
  cases unframed <;> rfl

/-- A block with the magic number in front is the fixed beginning that states its lengths. -/
theorem eq_fixedHeader {header : List UInt8} (whole : header.length = headerLength)
    (signed : fieldAt header 0 4 = magic) :
    header = fixedHeader (fieldAt header 4 4) (fieldAt header 8 4) := by
  have respelled : ∀ start, start + 4 ≤ headerLength →
      littleEndian 4 (fieldAt header start 4) = (header.drop start).take 4 := by
    intro start within
    have length : ((header.drop start).take 4).length = 4 := by
      rw [List.length_take, List.length_drop, whole]
      omega
    have spelled := littleEndian_ofLittleEndian ((header.drop start).take 4)
    rwa [length] at spelled
  have last : (header.drop 8).take 4 = header.drop 8 :=
    List.take_of_length_le (by rw [List.length_drop, whole]; decide)
  have behind : header.drop 8 = (header.drop 4).drop 4 := by rw [List.drop_drop]
  rw [fixedHeader, ← signed, respelled 0 (by decide), respelled 4 (by decide),
    respelled 8 (by decide), last, List.drop_zero, List.append_assoc, behind,
    List.take_append_drop, List.take_append_drop]

/-- A list that is long enough has a beginning of any length. -/
theorem exists_beginning {bytes : List UInt8} {n : Nat} (enough : n ≤ bytes.length) :
    ∃ front later, front.length = n ∧ bytes = front ++ later :=
  ⟨bytes.take n, bytes.drop n, List.length_take_of_le enough, (List.take_append_drop n bytes).symm⟩

/-- Bytes that there are begin with a frame, or do not for some cause. -/
theorem framed_or_unframed {bytes : List UInt8} (some_left : bytes ≠ []) :
    (∃ r frame later, Framed r frame ∧ bytes = frame ++ later) ∨
      ∃ cause, Unframed bytes cause := by
  rcases Nat.lt_or_ge bytes.length headerLength with short | enough
  · exact Or.inr ⟨_, .truncated some_left short⟩
  obtain ⟨header, afterHeader, whole, rfl⟩ := exists_beginning enough
  by_cases other : fieldAt header 0 4 ≠ magic
  · exact Or.inr ⟨_, .unsigned whole other⟩
  have stated := eq_fixedHeader whole (Classical.not_not.1 other)
  have key_fits : fieldAt header 4 4 < lengthBound := fieldAt_lt header 4 4
  have value_fits : fieldAt header 8 4 < lengthBound := fieldAt_lt header 8 4
  generalize fieldAt header 4 4 = keyLength at stated key_fits
  generalize fieldAt header 8 4 = valueLength at stated value_fits
  subst stated
  by_cases beyond : maxKeyLength < keyLength ∨ maxValueLength < valueLength
  · exact Or.inr ⟨_, .oversized key_fits value_fits beyond⟩
  have key_within : keyLength ≤ maxKeyLength := by omega
  have value_within : valueLength ≤ maxValueLength := by omega
  rcases Nat.lt_or_ge afterHeader.length (keyLength + 1 + padLength (keyLength + 1)) with
    short | enough
  · exact Or.inr ⟨_, .keyCut key_within value_within short⟩
  -- The block of the key is the key, one byte more, and what fills it up.
  obtain ⟨key, afterKey, rfl, rfl⟩ :=
    exists_beginning (n := keyLength) (by omega : keyLength ≤ afterHeader.length)
  rw [List.length_append] at enough
  obtain ⟨block, afterBlock, blockLength, rfl⟩ :=
    exists_beginning (n := padLength (key.length + 1) + 1) (by omega : _ ≤ afterKey.length)
  obtain ⟨final, filling, rfl⟩ := List.exists_cons_of_length_eq_add_one blockLength
  have filled : filling.length = padLength (key.length + 1) := Nat.succ.inj blockLength
  rw [← List.append_assoc key]
  by_cases other : final ≠ 0
  · exact Or.inr ⟨_, .unterminated key_within value_within filled other⟩
  obtain rfl : final = 0 := Classical.not_not.1 other
  rcases Nat.lt_or_ge afterBlock.length (valueLength + padLength valueLength) with short | enough
  · exact Or.inr ⟨_, .valueCut key_within value_within filled short⟩
  obtain ⟨value, afterValue, rfl, rfl⟩ :=
    exists_beginning (n := valueLength) (by omega : valueLength ≤ afterBlock.length)
  rw [List.length_append] at enough
  obtain ⟨valueFilling, later, value_filled, rfl⟩ :=
    exists_beginning (n := padLength value.length) (by omega : _ ≤ afterValue.length)
  refine Or.inl ⟨{ key, value }, _, later,
    ⟨key_within, value_within, filling, valueFilling, filled, value_filled, rfl⟩, ?_⟩
  simp only [List.append_assoc]

end Record

namespace RecordReader

/-! ### Reading what is no frame -/

section OneFault

variable {m : Medium} {h : Handle} {later : List UInt8}

/-- A reader does not get more bytes than there are. -/
theorem readExactly_of_short (sound : m.delivery.Sound) {wanted : Nat}
    (short : h.rest.length < wanted) :
    ∃ h' m', m.readExactly h wanted = (.error .cutShort, h', m') := by
  obtain ⟨d, -, read⟩ := Medium.readExactly_of_sound sound h wanted
  have fewer : (h.upcoming wanted).length ≠ wanted := by
    rw [Handle.upcoming_eq_take, List.length_take]
    omega
  rw [if_neg fewer] at read
  exact ⟨_, _, read⟩

theorem readRecord_of_truncated (sound : m.delivery.Sound) (some_left : h.rest ≠ [])
    (short : h.rest.length < Record.headerLength) :
    ∃ h' m', readRecord m h = (.error .truncatedHeader, h', m') := by
  obtain ⟨d, -, filled⟩ := Medium.fill_of_sound sound h Record.headerLength
  rw [Handle.upcoming_eq_take, List.take_of_length_le (Nat.le_of_lt short)] at filled
  have there : h.rest.length ≠ 0 := by
    rw [Ne, List.length_eq_zero_iff]
    exact some_left
  refine ⟨h.advance (min Record.headerLength h.available), { m with delivery := d }, ?_⟩
  simp only [readRecord, filled, if_neg there, if_pos short]

theorem readRecord_of_unsigned (sound : m.delivery.Sound) {header : List UInt8}
    (whole : header.length = Record.headerLength) (other : fieldAt header 0 4 ≠ Record.magic)
    (ahead : h.rest = header ++ later) :
    ∃ h' m', readRecord m h = (.error (.badMagic (fieldAt header 0 4)), h', m') := by
  obtain ⟨h', m', read, -, -⟩ := Medium.fill_of_rest sound ahead
  rw [whole] at read
  refine ⟨h', m', ?_⟩
  have some_there : Record.headerLength ≠ 0 := by decide
  simp only [readRecord, read, whole, if_neg some_there, Nat.lt_irrefl, if_false, ne_eq, other,
    not_false_eq_true, if_true]

/-- Behind a fixed beginning with lengths that it accepts, a reader goes on to the key. -/
theorem readRecord_of_accepted (sound : m.delivery.Sound) {keyLength valueLength : Nat}
    (key_within : keyLength ≤ Record.maxKeyLength)
    (value_within : valueLength ≤ Record.maxValueLength)
    (ahead : h.rest = Record.fixedHeader keyLength valueLength ++ later) :
    ∃ h' m', m'.delivery.Sound ∧ h'.rest = later ∧
      readRecord m h = readKey m' h' keyLength valueLength := by
  obtain ⟨h', m', sound', behind, read⟩ := readRecord_of_rest sound
    (Nat.lt_of_le_of_lt key_within (by decide)) (Nat.lt_of_le_of_lt value_within (by decide)) ahead
  rw [if_neg (by omega)] at read
  exact ⟨h', m', sound', behind, read⟩

/-- A reader with no frame in front of it fails for the cause for which there is none. -/
theorem readRecord_of_unframed (sound : m.delivery.Sound) {bytes : List UInt8} {cause : IoError}
    (unframed : Record.Unframed bytes cause) (ahead : h.rest = bytes) :
    ∃ h' m', readRecord m h = (.error cause, h', m') := by
  cases unframed with
  | truncated some_left short =>
      subst ahead
      exact readRecord_of_truncated sound some_left short
  | unsigned whole other => exact readRecord_of_unsigned sound whole other ahead
  | oversized key_fits value_fits beyond =>
      obtain ⟨h', m', -, -, read⟩ := readRecord_of_rest sound key_fits value_fits ahead
      exact ⟨h', m', read.trans (if_pos beyond)⟩
  | keyCut key_within value_within short =>
      obtain ⟨h₁, m₁, sound₁, behind₁, read⟩ :=
        readRecord_of_accepted sound key_within value_within ahead
      obtain ⟨h₂, m₂, cut⟩ := readExactly_of_short sound₁ (behind₁ ▸ short)
      refine ⟨h₂, m₂, ?_⟩
      rw [read, readKey, cut]
  | @unterminated key filling later final valueLength key_within value_within filled other =>
      obtain ⟨h₁, m₁, sound₁, behind₁, read⟩ :=
        readRecord_of_accepted sound key_within value_within ahead
      obtain ⟨h₂, m₂, block, -, -⟩ := Medium.readExactly_of_rest sound₁ behind₁
      refine ⟨h₂, m₂, ?_⟩
      have length : (key ++ final :: filling).length =
          key.length + 1 + Record.padLength (key.length + 1) := by
        rw [List.length_append, List.length_cons, filled]
        omega
      have behind : (key ++ final :: filling)[key.length]? ≠ some 0 := by
        rw [List.getElem?_append_right (Nat.le_refl _), Nat.sub_self, List.getElem?_cons_zero]
        exact fun zero => other (Option.some.inj zero)
      rw [length] at block
      simp only [read, readKey, block, if_neg behind]
  | @valueCut key filling later valueLength key_within value_within filled short =>
      obtain ⟨h₁, m₁, sound₁, behind₁, read⟩ :=
        readRecord_of_accepted sound key_within value_within ahead
      obtain ⟨h₂, m₂, read_key, sound₂, behind₂⟩ :=
        readKey_of_rest sound₁ valueLength filled behind₁
      obtain ⟨h₃, m₃, cut⟩ := readExactly_of_short sound₂ (behind₂ ▸ short)
      refine ⟨h₃, m₃, ?_⟩
      rw [read, read_key, readValue, cut]

end OneFault

/-- A reader that gives no trouble, with some bytes in front of it. -/
private theorem exists_reader (bytes : List UInt8) :
    ∃ (m : Medium) (h : Handle), m.delivery.Sound ∧ h.rest = bytes :=
  ⟨Medium.ofContent bytes.toArray, { content := bytes.toArray },
    (Medium.faultless_ofContent _).sound, rfl⟩

/-- The rules are told apart: bytes that are no frame are none for one cause only. -/
theorem cause_unique {bytes : List UInt8} {cause other : IoError}
    (unframed : Record.Unframed bytes cause) (unframed' : Record.Unframed bytes other) :
    other = cause := by
  obtain ⟨m, h, sound, ahead⟩ := exists_reader bytes
  obtain ⟨h₁, m₁, read⟩ := readRecord_of_unframed sound unframed ahead
  obtain ⟨h₂, m₂, read'⟩ := readRecord_of_unframed sound unframed' ahead
  rw [read] at read'
  cases read'
  rfl

/-- Some bytes begin with one frame at most, and it is a frame of one record. -/
theorem frame_unique {r r' : Record} {frame frame' later later' : List UInt8}
    (framed : r.Framed frame) (framed' : r'.Framed frame')
    (same : frame' ++ later' = frame ++ later) : r' = r ∧ later' = later := by
  obtain ⟨m, h, sound, ahead⟩ := exists_reader (frame ++ later)
  obtain ⟨h₁, m₁, -, read, behind⟩ := readRecord_of_framed sound framed ahead
  obtain ⟨h₂, m₂, -, read', behind'⟩ := readRecord_of_framed sound framed' (ahead.trans same.symm)
  rw [read] at read'
  cases read'
  exact ⟨rfl, behind'.symm.trans behind⟩

/-- There is one run behind which no frame begins. -/
theorem run_unique {bytes left left' : List UInt8} {records records' : List Record}
    (run : Record.FrameRun bytes records left) (run' : Record.FrameRun bytes records' left')
    (ends : ∀ {r frame later}, Record.Framed r frame → left ≠ frame ++ later)
    (ends' : ∀ {r frame later}, Record.Framed r frame → left' ≠ frame ++ later) :
    records' = records ∧ left' = left := by
  induction run generalizing records' with
  | nothing bytes =>
      cases run' with
      | nothing => exact ⟨rfl, rfl⟩
      | frame framed rest => exact absurd rfl (ends framed)
  | @frame r frame bytes left records framed rest ih =>
      generalize whole : frame ++ bytes = all at run'
      cases run' with
      | nothing => exact absurd whole.symm (ends' framed)
      | frame framed' rest' =>
          obtain ⟨rfl, rfl⟩ := frame_unique framed framed' whole.symm
          obtain ⟨rfl, rfl⟩ := ih rest' ends
          exact ⟨rfl, rfl⟩

/-! ### What is told of any bytes -/

/-- What there is to hear of bytes that do not begin with a frame. -/
inductive Ending : List UInt8 → List (Except IoError Record) → Prop where
  /-- Nothing is left. -/
  | reached : Ending [] []
  /-- What is left is no frame, for one cause. -/
  | refused {left : List UInt8} {cause : IoError} (unframed : Record.Unframed left cause)
      (only : ∀ {other}, Record.Unframed left other → other = cause)
      (kind : cause.kind = if cause = .cutShort then .unexpectedEof else .invalidData) :
      Ending left [.error cause]

/-- A reader gives the records of a run of frames, and then what there is to hear of the rest. -/
theorem tells_of_run {bytes left : List UInt8} {records : List Record}
    (run : Record.FrameRun bytes records left) {ending : List (Except IoError Record)}
    (ends : Ending left ending) {r : RecordReader} (undone : r.done = false)
    (sound : r.medium.delivery.Sound) (ahead : r.handle.rest = bytes) :
    r.Tells (records.map .ok ++ ending) := by
  induction run generalizing r with
  | nothing bytes =>
      cases ends with
      | reached =>
          obtain ⟨h, m, read⟩ := readRecord_of_end sound ahead
          exact tells_of_end undone read
      | refused unframed =>
          obtain ⟨h, m, read⟩ := readRecord_of_unframed sound unframed ahead
          exact tells_of_failure undone read
  | frame framed rest ih =>
      obtain ⟨h, m, sound', read, behind⟩ := readRecord_of_framed sound framed ahead
      exact tells_of_record undone read (ih ends undone sound' behind)

/-- Of any bytes, in whatever pieces they come, a reader gives the records of the longest run of
frames with which they begin, and no others.  If something is left behind these frames, it
then tells for which one cause that is no frame; and then there is nothing more. -/
theorem answers_follow_longest_run (bytes : List UInt8) :
    ∃ records left ending, Record.LongestRun bytes records left ∧ Ending left ending ∧
      (∀ r ∈ records, ∃ before frame after, bytes = before ++ frame ++ after ∧ r.Framed frame) ∧
      ∀ delivery : Delivery, delivery.Sound → ∀ n,
        (ofContent bytes.toArray delivery).answers n =
          (List.range n).map fun i => (records.map .ok ++ ending)[i]? := by
  obtain ⟨records, left, longest⟩ := Record.exists_longestRun bytes
  have ends : ∃ ending, Ending left ending := by
    by_cases some_left : left ≠ []
    · rcases Record.framed_or_unframed some_left with
        ⟨r, frame, later, framed, split⟩ | ⟨cause, unframed⟩
      · exact absurd split (longest.unframed framed)
      · exact ⟨_, .refused unframed (cause_unique unframed) unframed.kind⟩
    · obtain rfl : left = [] := Classical.not_not.1 some_left
      exact ⟨[], .reached⟩
  obtain ⟨ending, ends⟩ := ends
  refine ⟨records, left, ending, longest, ends, longest.run.present, ?_⟩
  intro delivery sound
  exact tells_of_run longest.run ends rfl sound rfl

/-- Of a frame with one byte behind it, the record is given and the byte is refused, where the
zeros that fill up the frame are other bytes, every read brings one byte and the first one is
interrupted. -/
theorem answers_follow_longest_run_of_sample :
    let delivery : Delivery := { fates := [.interrupted], extraAtMost := some 0 }
    let frame : List UInt8 :=
      [68, 97, 116, 97, 1, 0, 0, 0, 1, 0, 0, 0, 107, 0, 1, 2, 118, 3, 4, 5]
    delivery.Sound ∧ Record.LongestRun (frame ++ [68]) [{ key := [107], value := [118] }] [68] ∧
      (ofContent (frame ++ [68]).toArray delivery).answers 4 =
        [some (.ok { key := [107], value := [118] }), some (.error .truncatedHeader), none,
          none] := by
  intro delivery frame
  have sound : delivery.Sound := ⟨rfl, by simp [delivery]⟩
  have framed : Record.Framed { key := [107], value := [118] } frame :=
    ⟨by decide, by decide, [1, 2], [3, 4, 5], rfl, rfl, rfl⟩
  have unframed : Record.Unframed [68] .truncatedHeader := .truncated (by decide) (by decide)
  have ends : ∀ {r frame later}, Record.Framed r frame → [68] ≠ frame ++ later := by
    intro r frame later framed' same
    obtain ⟨_, _, keyFilling, valueFilling, _, _, rfl⟩ := framed'
    have lengths := congrArg List.length same
    simp only [List.length_append, Record.length_fixedHeader, Record.headerLength,
      List.length_singleton] at lengths
    omega
  obtain ⟨records, left, ending, longest, ended, -, answers⟩ :=
    answers_follow_longest_run (frame ++ [68])
  obtain ⟨rfl, rfl⟩ := run_unique (.frame framed (.nothing [68])) longest.run ends longest.unframed
  cases ended with
  | refused unframed' only =>
      obtain rfl := only unframed
      exact ⟨sound, longest, answers delivery sound 4⟩

end RecordReader
end BackupRestore
