/-
Module: BackupRestore.Proofs.Spans
Purpose: What comes of opening a cursor on any span of an archive that is held in memory.
Main exports: PayloadSpan.header, PayloadSpan.dataStart, PayloadSpan.Opening, Cursor.Covers,
  PayloadSpan.dataStart_lt, Cursor.openAt_on_any_span
-/
import Mathlib.Algebra.GroupWithZero.Nat
import BackupRestore.Proofs.Chunks

namespace BackupRestore

/-!
A span comes from a directory that nobody has checked: its header may be said to stand
anywhere, and its data to be of any length.  Opening a cursor on it goes through four checks,
and the first that fails decides the error (`PayloadSpan.Opening`).

The place of the data is a sum of four numbers that are never checked.  It stays below `2 ^ 64`
all the same, because it is only computed behind a header that has been read whole: where
thirty bytes lie at a place, the place is not far from the beginning, and the two lengths in a
header have two bytes each.
-/

/-- A number is that of a header exactly if its bytes are `PK\x03\x04`. -/
theorem fieldAt_eq_localSignature_iff {header : List UInt8} (some_bytes : 4 ≤ header.length) :
    fieldAt header 0 4 = Zip.localSignature ↔ header.take 4 = [0x50, 0x4B, 0x03, 0x04] := by
  have count : (header.take 4).length = 4 := List.length_take_of_le some_bytes
  have spelled := littleEndian_ofLittleEndian (header.take 4)
  rw [count] at spelled
  rw [fieldAt, List.drop_zero]
  constructor
  · intro number
    rw [← spelled, number]
    rfl
  · intro bytes
    rw [bytes]
    rfl

namespace PayloadSpan

/-- The bytes at the place of the header, as far as the archive reaches: thirty of them if the
header is there. -/
def header (span : PayloadSpan) (c : Content) : List UInt8 :=
  (c.toList.drop span.headerStart).take 30

/-- Where the data begins: behind the header, and the name and the extra fields whose lengths
the header gives. -/
def dataStart (span : PayloadSpan) (c : Content) : Nat :=
  span.headerStart + 30 + fieldAt (span.header c) 26 2 + fieldAt (span.header c) 28 2

/-- The bytes of the data, cut off at the end of the archive. -/
def data (span : PayloadSpan) (c : Content) : List UInt8 :=
  (c.toList.drop (span.dataStart c)).take span.compressedSize

/-- The data can be read piece by piece, for all that the directory says. -/
structure Readable (span : PayloadSpan) : Prop where
  plain : span.isEncrypted = false
  supported : span.method = .stored ∨ span.method = .deflated

end PayloadSpan

/-- The bytes of the archive that a cursor has still to read. -/
def Cursor.ahead : Cursor → List UInt8
  | stored handle limit => handle.upcoming limit
  | deflated handle limit _ => handle.upcoming limit

/-- The cursor has just these bytes of the archive to read, and from it are read the bytes that
they stand for. -/
structure Cursor.Covers (cursor : Cursor) (method : Zip.Method) (data : List UInt8) : Prop where
  ahead : cursor.ahead = data
  holds : ∀ payload, Archive.decode method data = .ok payload → cursor.Holds payload

/-- What comes of opening a cursor on a span of an archive with the bytes `c`. -/
inductive PayloadSpan.Opening (c : Content) (path : String) (span : PayloadSpan) :
    Except RestoreError Cursor → Prop where
  | encrypted (locked : span.isEncrypted = true) :
      Opening c path span (.error (.encryptedEntry path))
  | unsupported (plain : span.isEncrypted = false) (unstored : span.method ≠ .stored)
      (undeflated : span.method ≠ .deflated) :
      Opening c path span (.error (.unsupportedCompression path span.method.name))
  | short {cause : IoError} (readable : span.Readable) (few : (span.header c).length < 30)
      (kind : cause.kind = .unexpectedEof) : Opening c path span (.error (.io cause))
  | unsigned {cause : IoError} (readable : span.Readable) (whole : (span.header c).length = 30)
      (other : (span.header c).take 4 ≠ [0x50, 0x4B, 0x03, 0x04])
      (kind : cause.kind = .invalidData) : Opening c path span (.error (.io cause))
  | opened {cursor : Cursor} (readable : span.Readable) (whole : (span.header c).length = 30)
      (signed : (span.header c).take 4 = [0x50, 0x4B, 0x03, 0x04])
      (fits : span.dataStart c < 2 ^ 64) (covers : cursor.Covers span.method (span.data c)) :
      Opening c path span (.ok cursor)

/-- Behind a header that is there whole, the data begins at a place that eight bytes can spell. -/
theorem PayloadSpan.dataStart_lt {span : PayloadSpan} {c : Content} (small : c.size < 2 ^ 63)
    (whole : (span.header c).length = 30) : span.dataStart c < 2 ^ 64 := by
  have name := fieldAt_lt (span.header c) 26 2
  have extra := fieldAt_lt (span.header c) 28 2
  have there : span.headerStart + 30 ≤ c.size := by
    simp only [header, List.length_take, List.length_drop, Array.length_toList] at whole
    omega
  have words : Nat.pow 256 2 = 65536 := rfl
  simp only [dataStart]
  omega

namespace Cursor

/-- A cursor at the beginning of data covers it. -/
theorem covers_of_start (method : Zip.Method) (h : Handle) {start size : Nat}
    {data : List UInt8} (bytes : data = (h.content.toList.drop start).take size) :
    Covers (if method = .stored then .stored (h.moveTo start) size
      else .deflated (h.moveTo start) size {}) method data := by
  have upcoming : (h.moveTo start).upcoming size = data := by
    rw [Handle.upcoming_eq_take, bytes]
    rfl
  by_cases method_eq : method = .stored
  · rw [if_pos method_eq]
    refine ⟨upcoming, ?_⟩
    intro payload decoded
    rw [Archive.decode, if_pos method_eq] at decoded
    cases decoded
    exact upcoming
  · rw [if_neg method_eq]
    refine ⟨upcoming, ?_⟩
    intro payload decoded
    rw [Archive.decode, if_neg method_eq, ← upcoming] at decoded
    exact ⟨⟨rfl, Nat.zero_le _⟩, payload, Deflate.outcome_of_inflate decoded, rfl⟩

/-- Where no place is out of reach and no read fails, opening a cursor on a readable span depends
on the header alone. -/
theorem openAt_of_readable {m : Medium} (sound : m.delivery.Sound) (unbounded : m.reach = none)
    (h : Handle) (path : String) {span : PayloadSpan} (readable : span.Readable) :
    ∃ delivery : Delivery, openAt m h path span =
      if (span.header h.content).length = 30 then
        if fieldAt (span.header h.content) 0 4 = Zip.localSignature then
          (.ok (if span.method = .stored then
              .stored (h.moveTo (span.dataStart h.content)) span.compressedSize
            else .deflated (h.moveTo (span.dataStart h.content)) span.compressedSize {}),
            { m with delivery })
        else (.error (.io (.badLocalHeader path)), { m with delivery }.release)
      else (.error (.io .cutShort), { m with delivery }.release) := by
  have supported := Zip.Method.isSupported_iff.2 readable.supported
  obtain ⟨d, -, read⟩ := Medium.readExactly_of_sound sound (h.moveTo span.headerStart)
    Zip.localHeaderLength
  have upcoming : (h.moveTo span.headerStart).upcoming Zip.localHeaderLength =
      span.header h.content := by
    rw [Handle.upcoming_eq_take]
    rfl
  have start : span.headerStart + Zip.localHeaderLength + Zip.localTail (span.header h.content) =
      span.dataStart h.content := by
    rw [Zip.localTail, ← Nat.add_assoc]
    rfl
  have length : Zip.localHeaderLength = 30 := rfl
  rw [upcoming, length] at read
  refine ⟨d, ?_⟩
  unfold openAt
  simp only [readable.plain, supported, Medium.seek, unbounded, Option.any_none, length, read,
    Bool.false_eq_true, if_false, Bool.not_true]
  by_cases whole : (span.header h.content).length = 30
  · rw [if_pos whole, if_pos whole]
    by_cases signed : fieldAt (span.header h.content) 0 4 = Zip.localSignature
    · rw [length] at start
      simp only [signed, ne_eq, not_true_eq_false, if_false, if_true, start, Option.any_none,
        Bool.false_eq_true]
      split <;> rfl
    · simp only [signed, ne_eq, not_false_eq_true, if_true, if_false]
  · rw [if_neg whole, if_neg whole]

/-- On any span of an archive in memory of fewer than `2 ^ 63` bytes, opening a cursor fails at
the first of four checks, and otherwise gives one that covers the data behind the header.  The
handle is given back with every error. -/
theorem openAt_on_any_span {m : Medium} (sound : m.delivery.Sound) (unbounded : m.reach = none)
    {h : Handle} (small : h.content.size < 2 ^ 63) {others : Nat} (held : m.live = others + 1)
    (path : String) (span : PayloadSpan) :
    ∃ answer m', openAt m h path span = (answer, m') ∧ span.Opening h.content path answer ∧
      (∀ e, answer = .error e → m'.live = others) ∧
      (∀ cursor, answer = .ok cursor → m'.live = others + 1) := by
  have given_back : m.live - 1 = others := by omega
  cases locked : span.isEncrypted with
  | true =>
      refine ⟨.error (.encryptedEntry path), m.release, ?_, .encrypted locked,
        fun _ _ => given_back, fun _ wrong => by cases wrong⟩
      rw [openAt, if_pos locked]
  | false =>
      by_cases supported : span.method.isSupported = true
      · have readable : span.Readable := ⟨locked, Zip.Method.isSupported_iff.1 supported⟩
        obtain ⟨d, opened⟩ := openAt_of_readable sound unbounded h path readable
        rw [opened]
        by_cases whole : (span.header h.content).length = 30
        · have some_bytes : 4 ≤ (span.header h.content).length := by omega
          have bytes := fieldAt_eq_localSignature_iff some_bytes
          rw [if_pos whole]
          by_cases signed : fieldAt (span.header h.content) 0 4 = Zip.localSignature
          · rw [if_pos signed]
            exact ⟨_, _, rfl, .opened readable whole (bytes.1 signed)
              (PayloadSpan.dataStart_lt small whole) (covers_of_start span.method h rfl),
              (fun _ wrong => by cases wrong), fun _ _ => held⟩
          · rw [if_neg signed]
            exact ⟨_, _, rfl, .unsigned readable whole (mt bytes.2 signed) rfl,
              fun _ _ => given_back, fun _ wrong => by cases wrong⟩
        · have few : (span.header h.content).length < 30 :=
            Nat.lt_of_le_of_ne (List.length_take_le _ _) whole
          rw [if_neg whole]
          exact ⟨_, _, rfl, .short readable few rfl, fun _ _ => given_back,
            fun _ wrong => by cases wrong⟩
      · have neither := mt Zip.Method.isSupported_iff.2 supported
        rw [not_or] at neither
        refine ⟨.error (.unsupportedCompression path span.method.name), m.release, ?_,
          .unsupported locked neither.1 neither.2, fun _ _ => given_back,
          fun _ wrong => by cases wrong⟩
        rw [openAt, locked, if_neg Bool.false_ne_true, eq_false_of_ne_true supported]
        rfl

/-- A span with the largest numbers that it can have, on the sample archive. -/
theorem openAt_on_farthest_span :
    (Medium.ofContent Sample.content).delivery.Sound ∧ Sample.content.size < 2 ^ 63 ∧
    ∃ answer m',
      openAt { Medium.ofContent Sample.content with live := 1 } { content := Sample.content } "p"
        { headerStart := 2 ^ 64 - 1, compressedSize := 2 ^ 64 - 1, method := .stored,
          isEncrypted := false } = (answer, m') ∧
      PayloadSpan.Opening Sample.content "p"
        { headerStart := 2 ^ 64 - 1, compressedSize := 2 ^ 64 - 1, method := .stored,
          isEncrypted := false } answer ∧
      (∀ e, answer = .error e → m'.live = 0) ∧ (∀ cursor, answer = .ok cursor → m'.live = 1) := by
  have sound := (Medium.faultless_ofContent Sample.content).sound
  have size : Sample.content.size = 223 := rfl
  have small : Sample.content.size < 2 ^ 63 := by omega
  exact ⟨sound, small, openAt_on_any_span (m := { Medium.ofContent Sample.content with live := 1 })
    (h := { content := Sample.content }) sound rfl small rfl "p" _⟩

end Cursor
end BackupRestore
