/-
Module: BackupRestore.Deflate.Bits
Purpose: Compressed bytes as a source of bits, and reading numbers from it.
Main exports: BitSource, BitSource.next?, Parsed, BitSource.number
-/

namespace BackupRestore.Deflate

/-!
Bits are taken from each byte lowest first.  A reading either succeeds, or needs
bits that have not come yet, or has met something that no further bits can
mend.  A reading that needs more leaves its source alone, so it can be repeated
once more bytes have come.
-/

/-- The bits of a byte, the lowest first. -/
def byteBits (b : UInt8) : List Bool :=
  let n := b.toNat
  [n.testBit 0, n.testBit 1, n.testBit 2, n.testBit 3,
    n.testBit 4, n.testBit 5, n.testBit 6, n.testBit 7]

/-- Bits that have come and have not been read: what is left of bytes that have been
taken up, and whole bytes. -/
structure BitSource where
  begun : List Bool
  whole : List UInt8
deriving Repr, Inhabited, DecidableEq

namespace BitSource

/-- All bits, in the order in which they are read. -/
def toBits (s : BitSource) : List Bool := s.begun ++ s.whole.flatMap byteBits

/-- How many bits there are. -/
def size (s : BitSource) : Nat := s.begun.length + 8 * s.whole.length

/-- The source after more bytes have come. -/
def append (s : BitSource) (bytes : List UInt8) : BitSource :=
  { s with whole := s.whole ++ bytes }

/-- The source without the rest of the byte that is being read. -/
def align (s : BitSource) : BitSource :=
  { s with begun := s.begun.drop (s.begun.length % 8) }

/-- The source after all bytes have been taken up. -/
def takeUp (s : BitSource) : BitSource := { begun := s.toBits, whole := [] }

/-- The next bit. -/
def next? (s : BitSource) : Option (Bool × BitSource) :=
  match s.begun, s.whole with
  | bit :: begun, whole => some (bit, { begun, whole })
  | [], byte :: whole =>
      match byteBits byte with
      | bit :: begun => some (bit, { begun, whole })
      | [] => none
  | [], [] => none

theorem size_next? {s s' : BitSource} {bit : Bool} (h : s.next? = some (bit, s')) :
    s'.size < s.size := by
  unfold next? at h
  split at h
  · rename_i begun whole hb _
    simp only [Option.some.injEq, Prod.mk.injEq] at h
    obtain ⟨-, rfl⟩ := h
    simp_all [size]
  · rename_i byte whole hb hw
    simp only [byteBits, Option.some.injEq, Prod.mk.injEq] at h
    obtain ⟨-, rfl⟩ := h
    simp only [size, hb, hw, List.length_cons, List.length_nil]
    omega
  · simp at h

theorem size_align_le (s : BitSource) : s.align.size ≤ s.size := by
  simp only [align, size, List.length_drop]
  omega

/-- Taking bytes up leaves the bits as they are. -/
theorem toBits_takeUp (s : BitSource) : s.takeUp.toBits = s.toBits := by
  simp [takeUp, toBits]

theorem length_byteBits (b : UInt8) : (byteBits b).length = 8 := rfl

theorem length_toBits (s : BitSource) : s.toBits.length = s.size := by
  obtain ⟨begun, whole⟩ := s
  simp only [toBits, size, List.length_append]
  congr 1
  induction whole with
  | nil => rfl
  | cons b whole ih =>
    simp only [List.flatMap_cons, List.length_append, length_byteBits, ih, List.length_cons]
    omega

theorem size_takeUp (s : BitSource) : s.takeUp.size = s.size := by
  rw [← length_toBits, ← length_toBits, toBits_takeUp]

end BitSource

/-- What a reading gives. -/
inductive Parsed (α : Type) where
  /-- A value, and the bits after it. -/
  | done (value : α) (rest : BitSource)
  /-- More bits are needed. -/
  | short
  /-- The bits are wrong, whatever follows. -/
  | corrupt
deriving Repr, Inhabited

namespace Parsed

/-- Read on after a value. -/
def bind {α β : Type} (p : Parsed α) (f : α → BitSource → Parsed β) : Parsed β :=
  match p with
  | done value rest => f value rest
  | short => short
  | corrupt => corrupt

theorem bind_eq_done {α β : Type} {p : Parsed α} {f : α → BitSource → Parsed β} {b : β}
    {rest : BitSource} (h : p.bind f = done b rest) :
    ∃ a mid, p = done a mid ∧ f a mid = done b rest := by
  cases p with
  | done a mid => exact ⟨a, mid, rfl, h⟩
  | short => simp [bind] at h
  | corrupt => simp [bind] at h

end Parsed

namespace BitSource

/-- The next `n` bits as a number, the lowest first. -/
def number : (n : Nat) → BitSource → Parsed Nat
  | 0, s => .done 0 s
  | n + 1, s =>
      match s.next? with
      | none => .short
      | some (bit, s) => (number n s).bind fun value rest => .done (bit.toNat + 2 * value) rest

theorem size_number {n : Nat} {s rest : BitSource} {value : Nat}
    (h : s.number n = .done value rest) : rest.size + n ≤ s.size := by
  induction n generalizing s rest value with
  | zero =>
    simp only [number, Parsed.done.injEq] at h
    simp [h.2]
  | succ n ih =>
    rw [number] at h
    split at h
    · simp at h
    · rename_i bit s' hs
      obtain ⟨v, mid, hv, hd⟩ := Parsed.bind_eq_done h
      simp only [Parsed.done.injEq] at hd
      have := ih hv
      have := size_next? hs
      rw [← hd.2]
      omega

theorem number_lt {n : Nat} {s rest : BitSource} {value : Nat}
    (h : s.number n = .done value rest) : value < Nat.pow 2 n := by
  induction n generalizing s rest value with
  | zero =>
    simp only [number, Parsed.done.injEq] at h
    simp [← h.1]
  | succ n ih =>
    rw [number] at h
    split at h
    · simp at h
    · rename_i bit s' hs
      obtain ⟨v, mid, hv, hd⟩ := Parsed.bind_eq_done h
      simp only [Parsed.done.injEq] at hd
      have := ih hv
      have := Bool.toNat_lt bit
      have : Nat.pow 2 (n + 1) = Nat.pow 2 n * 2 := rfl
      omega

end BitSource

end BackupRestore.Deflate
