/-
Module: BackupRestore.Deflate.PrefixCode
Purpose: Prefix codes given by the lengths of their words.
Main exports: CodeTree, PrefixCode, PrefixCode.decode, PrefixCode.ofLengths?
-/
import BackupRestore.Deflate.Bits

namespace BackupRestore.Deflate

/-!
A prefix code is a binary tree with symbols at its leaves.  The lengths of the
words determine it: sorted by length and then by symbol, the symbols fill the
leaves from left to right.  Lengths for which the tree has too few places, or
leaves places over, are refused, but for the code of a single word of one bit.
-/

/-- What is left of a prefix code after some bits. -/
inductive CodeTree where
  /-- No word begins like this. -/
  | vacant
  | leaf (symbol : Nat)
  | fork (zero one : CodeTree)
deriving Repr, Inhabited, DecidableEq

namespace CodeTree

/-- Follow the bits down to a symbol. -/
def decode : CodeTree → BitSource → Parsed Nat
  | vacant, _ => .corrupt
  | leaf symbol, s => .done symbol s
  | fork zero one, s =>
      match s.next? with
      | none => .short
      | some (bit, s) => if bit then one.decode s else zero.decode s

theorem size_decode {t : CodeTree} {s rest : BitSource} {symbol : Nat}
    (h : t.decode s = .done symbol rest) : rest.size ≤ s.size := by
  induction t generalizing s rest with
  | vacant => simp [decode] at h
  | leaf symbol =>
    simp only [decode, Parsed.done.injEq] at h
    simp [h.2]
  | fork zero one hzero hone =>
    rw [decode] at h
    split at h
    · simp at h
    · rename_i bit s' hs
      have := BitSource.size_next? hs
      split at h
      · have := hone h; omega
      · have := hzero h; omega

/-- Every place holds a symbol. -/
def isFull : CodeTree → Bool
  | vacant => false
  | leaf _ => true
  | fork zero one => zero.isFull && one.isFull

/-- Place symbols from left to right below a point `level` bits deep, at most
`room` bits deeper.  Gives the tree and the symbols that found no place. -/
def place : (room level : Nat) → (words : List (Nat × Nat)) → CodeTree × List (Nat × Nat)
  | _, _, [] => (vacant, [])
  | 0, level, (length, symbol) :: words =>
      if length = level then (leaf symbol, words) else (vacant, (length, symbol) :: words)
  | room + 1, level, (length, symbol) :: words =>
      if length = level then (leaf symbol, words)
      else
        let (zero, words) := place room (level + 1) ((length, symbol) :: words)
        let (one, words) := place room (level + 1) words
        (fork zero one, words)

end CodeTree

/-- A prefix code.  Every word has at least one bit. -/
structure PrefixCode where
  zero : CodeTree
  one : CodeTree
deriving Repr, Inhabited, DecidableEq

namespace PrefixCode

/-- Read one symbol. -/
def decode (c : PrefixCode) (s : BitSource) : Parsed Nat :=
  match s.next? with
  | none => .short
  | some (bit, s) => if bit then c.one.decode s else c.zero.decode s

theorem size_decode {c : PrefixCode} {s rest : BitSource} {symbol : Nat}
    (h : c.decode s = .done symbol rest) : rest.size < s.size := by
  unfold decode at h
  split at h
  · simp at h
  · rename_i bit s' hs
    have := BitSource.size_next? hs
    split at h
    all_goals have := CodeTree.size_decode h; omega

/-- The longest word. -/
def maxLength : Nat := 15

/-- The symbols that have a word, with its length, the shortest words first and
among equals the smallest symbol. -/
def words (lengths : List Nat) : List (Nat × Nat) :=
  (List.range maxLength).flatMap fun shorter =>
    (lengths.zipIdx.filter fun entry => entry.1 == shorter + 1)

/-- The code in which no symbol has a word. -/
def vacant : PrefixCode := { zero := .vacant, one := .vacant }

/-- The code with words of the given lengths, and whether it leaves no place
over; nothing if there are more words than places. -/
def build? (lengths : List Nat) : Option (PrefixCode × Bool) :=
  let (zero, rest) := CodeTree.place (maxLength - 1) 1 (words lengths)
  let (one, rest) := CodeTree.place (maxLength - 1) 1 rest
  if rest.isEmpty then some ({ zero, one }, zero.isFull && one.isFull) else none

/-- The code with words of the given lengths.  It may leave places over only if
it has no word at all, or a single word of one bit. -/
def ofLengths? (lengths : List Nat) : Option PrefixCode :=
  match build? lengths with
  | none => none
  | some (code, full) =>
      if full || lengths.all (· ≤ 1) then some code else none

end PrefixCode

end BackupRestore.Deflate
