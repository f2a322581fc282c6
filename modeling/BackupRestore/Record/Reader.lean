/-
Module: BackupRestore.Record.Reader
Purpose: Reading frames back into records.
Main exports: RecordReader, RecordReader.next, RecordReader.readAll
-/
import BackupRestore.Medium
import BackupRestore.Record

namespace BackupRestore

/-- Reads frames one after the other.  After the end, or after a failure, it
gives nothing more. -/
structure RecordReader where
  handle : Handle
  medium : Medium
  done : Bool := false

namespace RecordReader

/-- A reader of some bytes, which come as `delivery` says. -/
def ofContent (content : Content) (delivery : Delivery) : RecordReader where
  handle := { content }
  medium := { Medium.ofContent content with delivery }

/-- Read the value that ends a frame. -/
def readValue (m : Medium) (h : Handle) (key : List UInt8) (valueLength : Nat) :
    Except IoError (Option Record) × Handle × Medium :=
  match m.readExactly h (valueLength + Record.padLength valueLength) with
  | (.error cause, h, m) => (.error cause, h, m)
  | (.ok block, h, m) => (.ok (some { key, value := block.take valueLength }), h, m)

/-- Read the key of a frame, and then its value. -/
def readKey (m : Medium) (h : Handle) (keyLength valueLength : Nat) :
    Except IoError (Option Record) × Handle × Medium :=
  match m.readExactly h (keyLength + 1 + Record.padLength (keyLength + 1)) with
  | (.error cause, h, m) => (.error cause, h, m)
  | (.ok block, h, m) =>
      if block[keyLength]? = some 0 then readValue m h (block.take keyLength) valueLength
      else (.error .unterminatedKey, h, m)

/-- Read one frame, or find the end. -/
def readRecord (m : Medium) (h : Handle) : Except IoError (Option Record) × Handle × Medium :=
  match m.fill h Record.headerLength with
  | (_, some cause, h, m) => (.error cause, h, m)
  | (header, none, h, m) =>
      if header.length = 0 then (.ok none, h, m)
      else if header.length < Record.headerLength then (.error .truncatedHeader, h, m)
      else
        let magic := fieldAt header 0 4
        let keyLength := fieldAt header 4 4
        let valueLength := fieldAt header 8 4
        if magic ≠ Record.magic then (.error (.badMagic magic), h, m)
        else if Record.maxKeyLength < keyLength ∨ Record.maxValueLength < valueLength then
          (.error .oversizedRecord, h, m)
        else readKey m h keyLength valueLength

/-- The next record, or the failure that ends the reading, or nothing. -/
def next (r : RecordReader) : Option (Except IoError Record) × RecordReader :=
  if r.done then (none, r)
  else
    match readRecord r.medium r.handle with
    | (.ok (some record), handle, medium) => (some (.ok record), { r with handle, medium })
    | (.ok none, handle, medium) => (none, { handle, medium, done := true })
    | (.error cause, handle, medium) => (some (.error cause), { handle, medium, done := true })

theorem available_readValue_le (m : Medium) (h : Handle) (key : List UInt8) (valueLength : Nat) :
    (readValue m h key valueLength).2.1.available ≤ h.available := by
  have := m.available_readExactly_le h (valueLength + Record.padLength valueLength)
  unfold readValue
  split <;> simp_all only

theorem available_readKey_le (m : Medium) (h : Handle) (keyLength valueLength : Nat) :
    (readKey m h keyLength valueLength).2.1.available ≤ h.available := by
  have := m.available_readExactly_le h (keyLength + 1 + Record.padLength (keyLength + 1))
  unfold readKey
  split
  · simp_all only
  · split
    · exact Nat.le_trans (available_readValue_le ..) (by simp_all only)
    · simp_all only

/-- Every record takes up bytes. -/
theorem available_readRecord {m m' : Medium} {h h' : Handle} {record : Record}
    (hr : readRecord m h = (.ok (some record), h', m')) : h'.available < h.available := by
  have hf := m.available_fill h Record.headerLength
  unfold readRecord at hr
  split at hr
  · simp at hr
  · rename_i header h₁ m₁ hm
    rw [hm] at hf
    simp only at hf hr
    split at hr
    · simp at hr
    · split at hr
      · simp at hr
      · split at hr
        · simp at hr
        · split at hr
          · simp at hr
          · have := available_readKey_le m₁ h₁ (fieldAt header 4 4) (fieldAt header 8 4)
            rw [hr] at this
            simp only at this
            omega

theorem available_next {r r' : RecordReader} {record : Record}
    (hr : r.next = (some (.ok record), r')) : r'.handle.available < r.handle.available := by
  unfold next at hr
  split at hr
  · simp at hr
  · split at hr
    · rename_i hread
      simp only [Prod.mk.injEq, Option.some.injEq, Except.ok.injEq] at hr
      obtain ⟨rfl, rfl⟩ := hr
      exact available_readRecord hread
    · simp at hr
    · simp at hr

/-- All records, and the failure that ends the reading, if one does. -/
def readAll (r : RecordReader) : List Record × Option IoError :=
  match h : r.next with
  | (none, _) => ([], none)
  | (some (.error cause), _) => ([], some cause)
  | (some (.ok record), next) =>
      have := available_next h
      let (records, failure) := next.readAll
      (record :: records, failure)
termination_by r.handle.available

end RecordReader

end BackupRestore
