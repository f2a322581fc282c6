/-
Module: BackupRestore.Bytes.Words
Purpose: Numbers of a fixed width as bytes, the lowest byte first.
Main exports: littleEndian, ofLittleEndian, fieldAt, Content, Content.word?
-/

namespace BackupRestore

/-- The bytes that an archive consists of. -/
abbrev Content := Array UInt8

/-- The lowest `width` bytes of a number, the lowest first. -/
def littleEndian : (width : Nat) → Nat → List UInt8
  | 0, _ => []
  | width + 1, n => UInt8.ofNat (n % 256) :: littleEndian width (n / 256)

/-- The number that some bytes spell, the lowest first. -/
def ofLittleEndian : List UInt8 → Nat
  | [] => 0
  | b :: rest => b.toNat + 256 * ofLittleEndian rest

theorem littleEndian_length (width n : Nat) : (littleEndian width n).length = width := by
  induction width generalizing n with
  | zero => rfl
  | succ width ih => simp [littleEndian, ih]

theorem ofLittleEndian_littleEndian (width n : Nat) (h : n < Nat.pow 256 width) :
    ofLittleEndian (littleEndian width n) = n := by
  induction width generalizing n with
  | zero => simp at h; simp [littleEndian, ofLittleEndian, h]
  | succ width ih =>
    have hdiv : n / 256 < Nat.pow 256 width := by
      have : Nat.pow 256 (width + 1) = Nat.pow 256 width * 256 := rfl
      omega
    simp only [littleEndian, ofLittleEndian, ih _ hdiv, UInt8.toNat_ofNat']
    omega

/-- Bytes are spelled again by the number that they spell. -/
theorem littleEndian_ofLittleEndian (bytes : List UInt8) :
    littleEndian bytes.length (ofLittleEndian bytes) = bytes := by
  induction bytes with
  | nil => rfl
  | cons b rest ih =>
    have low : (b.toNat + 256 * ofLittleEndian rest) % 256 = b.toNat := by
      have := b.toNat_lt
      omega
    have high : (b.toNat + 256 * ofLittleEndian rest) / 256 = ofLittleEndian rest := by
      have := b.toNat_lt
      omega
    simp only [List.length_cons, ofLittleEndian, littleEndian, low, high, ih, UInt8.ofNat_toNat]

theorem ofLittleEndian_lt (bytes : List UInt8) :
    ofLittleEndian bytes < Nat.pow 256 bytes.length := by
  induction bytes with
  | nil => exact Nat.one_pos
  | cons b rest ih =>
    have := b.toNat_lt
    have : Nat.pow 256 (rest.length + 1) = Nat.pow 256 rest.length * 256 := rfl
    simp only [ofLittleEndian, List.length_cons]
    omega

/-- The number in the `width` bytes of a block that begin at `start`. -/
def fieldAt (block : List UInt8) (start width : Nat) : Nat :=
  ofLittleEndian ((block.drop start).take width)

/-- A field holds a number that its width can spell. -/
theorem fieldAt_lt (block : List UInt8) (start width : Nat) :
    fieldAt block start width < Nat.pow 256 width := by
  have spelled := ofLittleEndian_lt ((block.drop start).take width)
  have short : ((block.drop start).take width).length ≤ width := List.length_take_le _ _
  exact Nat.lt_of_lt_of_le spelled (Nat.pow_le_pow_right (by decide) short)

namespace Content

/-- The bytes from `start` up to but not including `stop`, as far as there are any. -/
def slice (c : Content) (start stop : Nat) : List UInt8 :=
  (c.extract start stop).toList

/-- The `length` bytes that begin at `start`, if all of them are there. -/
def block? (c : Content) (start length : Nat) : Option (List UInt8) :=
  if start + length ≤ c.size then some (c.slice start (start + length)) else none

/-- The number in the `width` bytes that begin at `start`, if they are there. -/
def word? (c : Content) (start width : Nat) : Option Nat :=
  (c.block? start width).map ofLittleEndian

end Content

end BackupRestore
