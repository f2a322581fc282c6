/-
Module: BackupRestore.Deflate.Inflater
Purpose: Decoding compressed bytes step by step, as they come.
Main exports: Inflater, Inflater.step, Inflater.run, Inflater.exhaust, Inflater.deliver, inflate
-/
import BackupRestore.Deflate.Block
import BackupRestore.IoError

namespace BackupRestore.Deflate

/-!
An inflater makes one step at a time: a block header, a byte or an item.  A step
that needs bits which have not come takes up those that have, and changes nothing
else.  So the bytes that it decodes, and how they end, depend on the bits alone and
not on the pieces in which they come.  What it has decoded it never takes back.
-/

/-- Where in the compressed data the next step begins. -/
inductive Phase where
  /-- Before the header of a block. -/
  | blockStart
  /-- Within a stored block, with `left + 1` bytes to go. -/
  | stored (left : Nat)
  /-- Within a coded block. -/
  | coded (literals distances : PrefixCode)
  /-- Behind a copy that reaches to before the first byte. -/
  | tooFar
  /-- Behind the last block. -/
  | finished
deriving Repr, Inhabited, DecidableEq

/-- The state of decoding. -/
structure Inflater where
  source : BitSource := { begun := [], whole := [] }
  phase : Phase := .blockStart
  /-- The block being decoded is the last one. -/
  inLast : Bool := false
  /-- The bytes decoded, the latest first. -/
  latestFirst : List UInt8 := []
  /-- How many bytes have been decoded. -/
  count : Nat := 0
  /-- How many of them have not been delivered. -/
  waiting : Nat := 0
deriving Repr, Inhabited, DecidableEq

/-- What a step gives. -/
inductive Progress where
  | advanced (next : Inflater)
  /-- More bits are needed. -/
  | starved
  /-- The bits are wrong. -/
  | corrupt
  /-- The next bytes are to be copied from before the first one. -/
  | tooFar
  | finished
deriving Repr, Inhabited, DecidableEq

/-- Why decoding has stopped. -/
inductive Stop where
  /-- Enough bytes wait for delivery. -/
  | enough
  | starved
  | corrupt
  | finished
deriving Repr, Inhabited, DecidableEq

/-- Repeat `length` bytes from `distance` bytes back; a copy may run into the
bytes that it produces itself. -/
def copyBack (latestFirst : List UInt8) (distance length : Nat) : List UInt8 :=
  if _h : distance = 0 then latestFirst
  else if length ≤ distance then
    (latestFirst.drop (distance - length)).take length ++ latestFirst
  else copyBack (latestFirst.take distance ++ latestFirst) distance (length - distance)
termination_by length

namespace Inflater

/-- The bytes decoded, in order. -/
def decoded (s : Inflater) : List UInt8 := s.latestFirst.reverse

/-- Take in more compressed bytes. -/
def feed (s : Inflater) (bytes : List UInt8) : Inflater :=
  { s with source := s.source.append bytes }

/-- The phase behind the end of a block. -/
def afterBlock (isLast : Bool) : Phase :=
  if isLast then .finished else .blockStart

/-- Enter a block. -/
def enter (s : Inflater) (header : BlockHeader) : Inflater :=
  { s with
    inLast := header.isLast
    phase :=
      match header.body with
      | .stored 0 => afterBlock header.isLast
      | .stored (left + 1) => .stored left
      | .coded literals distances => .coded literals distances }

/-- Add one decoded byte. -/
def put (s : Inflater) (byte : UInt8) : Inflater :=
  { s with
    latestFirst := byte :: s.latestFirst
    count := s.count + 1
    waiting := s.waiting + 1 }

/-- Apply an item of a coded block. -/
def apply (s : Inflater) : Item → Progress
  | .literal byte => .advanced (s.put byte)
  | .endOfBlock => .advanced { s with phase := afterBlock s.inLast }
  | .copy length distance =>
      if s.count < distance then .advanced { s with phase := .tooFar }
      else
        .advanced { s with
          latestFirst := copyBack s.latestFirst distance length
          count := s.count + length
          waiting := s.waiting + length }

/-- The next step. -/
def step (s : Inflater) : Progress :=
  match s.phase with
  | .finished => .finished
  | .tooFar => .tooFar
  | .blockStart =>
      match readBlockHeader s.source with
      | .done header source => .advanced ({ s with source }.enter header)
      | .short => .starved
      | .corrupt => .corrupt
  | .stored left =>
      match s.source.number 8 with
      | .done byte source =>
          .advanced ({ s with
            source
            phase := match left with
              | 0 => afterBlock s.inLast
              | left + 1 => .stored left }.put (UInt8.ofNat byte))
      | .short => .starved
      | .corrupt => .corrupt
  | .coded literals distances =>
      match readItem literals distances s.source with
      | .done item source => { s with source }.apply item
      | .short => .starved
      | .corrupt => .corrupt

theorem source_apply {s next : Inflater} {item : Item} (h : s.apply item = .advanced next) :
    next.source = s.source := by
  cases item with
  | literal byte =>
    simp only [apply, Progress.advanced.injEq] at h
    simp [← h, put]
  | copy length distance =>
    simp only [apply] at h
    split at h
    all_goals
      simp only [Progress.advanced.injEq] at h
      simp [← h]
  | endOfBlock =>
    simp only [apply, Progress.advanced.injEq] at h
    simp [← h]

/-- Every step uses up some bits. -/
theorem size_step {s next : Inflater} (h : s.step = .advanced next) :
    next.source.size < s.source.size := by
  unfold step at h
  split at h
  · simp at h
  · simp at h
  · split at h
    · rename_i header source hr
      simp only [Progress.advanced.injEq] at h
      rw [← h]
      exact size_readBlockHeader hr
    · simp at h
    · simp at h
  · split at h
    · rename_i byte source hr
      simp only [Progress.advanced.injEq] at h
      have := BitSource.size_number hr
      rw [← h]
      simp only [put]
      omega
    · simp at h
    · simp at h
  · split at h
    · rename_i item source hr
      rw [source_apply h]
      exact size_readItem hr
    · simp at h
    · simp at h

/-- A bound on the bytes that can still be delivered: those that wait, and for every
bit as many as an item stands for at most. -/
def potential (s : Inflater) : Nat := itemLimit * s.source.size + s.waiting

theorem waiting_step {s next : Inflater} (h : s.step = .advanced next) :
    next.waiting ≤ s.waiting + itemLimit := by
  unfold step at h
  split at h
  · simp at h
  · simp at h
  · split at h
    · simp only [Progress.advanced.injEq] at h
      simp [← h, enter]
    · simp at h
    · simp at h
  · split at h
    · simp only [Progress.advanced.injEq] at h
      simp [← h, put, itemLimit]
    · simp at h
    · simp at h
  · split at h
    · rename_i item source hr
      cases item with
      | literal byte =>
        simp only [apply, Progress.advanced.injEq] at h
        simp [← h, put, itemLimit]
      | endOfBlock =>
        simp only [apply, Progress.advanced.injEq] at h
        simp [← h]
      | copy length distance =>
        have := copy_length_le hr
        simp only [apply] at h
        split at h
        all_goals
          simp only [Progress.advanced.injEq] at h
          simp only [← h]
          omega
    · simp at h
    · simp at h

/-- No step adds to what can still be delivered. -/
theorem potential_step {s next : Inflater} (h : s.step = .advanced next) :
    next.potential ≤ s.potential := by
  have := size_step h
  have := waiting_step h
  have : itemLimit * (next.source.size + 1) ≤ itemLimit * s.source.size :=
    Nat.mul_le_mul_left _ (by omega)
  unfold potential
  rw [Nat.mul_add] at this
  omega

/-- The next step would only move a byte of a stored block. -/
def isAtByte (s : Inflater) : Bool :=
  match s.phase with
  | .stored _ => true
  | .blockStart | .coded .. | .tooFar | .finished => false

/-- Nothing that stands behind the bytes wanted has to be looked at. -/
def hasEnough (s : Inflater) (wanted : Nat) : Bool :=
  wanted < s.waiting || (wanted == s.waiting && s.isAtByte)

/-- The inflater after the bytes that have come have been taken up. -/
def takeUp (s : Inflater) : Inflater := { s with source := s.source.takeUp }

/-- Make steps until more than `wanted` bytes wait for delivery.  So what stands
behind the last byte wanted is looked at too, as far as it has come, unless it is a
byte of a stored block; only a copy that reaches too far is left alone until its
bytes are wanted. -/
def run (s : Inflater) (wanted : Nat) : Inflater × Stop :=
  if s.hasEnough wanted then (s, .enough)
  else
    match h : s.step with
    | .advanced next =>
        have := size_step h
        next.run wanted
    | .starved => (s.takeUp, if wanted ≤ s.waiting then .enough else .starved)
    | .tooFar => (s, if wanted ≤ s.waiting then .enough else .corrupt)
    | .corrupt => (s, .corrupt)
    | .finished => (s, .finished)
termination_by s.source.size

theorem potential_takeUp (s : Inflater) : s.takeUp.potential = s.potential := by
  simp [takeUp, potential, BitSource.size_takeUp]

theorem potential_run (s : Inflater) (wanted : Nat) :
    (s.run wanted).1.potential ≤ s.potential := by
  fun_induction run s wanted with
  | case2 s _ next h _ ih => exact Nat.le_trans ih (potential_step h)
  | case3 s _ _ => exact Nat.le_of_eq s.potential_takeUp
  | _ => exact Nat.le_refl _

/-- Make steps as long as there are any. -/
def exhaust (s : Inflater) : Inflater × Stop :=
  match h : s.step with
  | .advanced next =>
      have := size_step h
      next.exhaust
  | .starved => (s, .starved)
  | .corrupt | .tooFar => (s, .corrupt)
  | .finished => (s, .finished)
termination_by s.source.size

/-- The oldest bytes that wait for delivery, at most `n` of them. -/
def deliver (s : Inflater) (n : Nat) : List UInt8 × Inflater :=
  let moved := min n s.waiting
  (((s.latestFirst.take s.waiting).drop (s.waiting - moved)).reverse,
    { s with waiting := s.waiting - moved })

theorem potential_deliver (s : Inflater) (n : Nat) :
    (s.deliver n).2.potential + (s.deliver n).1.length ≤ s.potential := by
  simp only [deliver, potential, List.length_reverse, List.length_drop, List.length_take]
  omega

theorem potential_feed (s : Inflater) (bytes : List UInt8) :
    (s.feed bytes).potential = s.potential + itemLimit * (8 * bytes.length) := by
  simp only [feed, potential, BitSource.append, BitSource.size, List.length_append, itemLimit]
  omega

end Inflater

/-- The bytes for which some compressed bytes stand.  Whatever follows the last
block is not looked at. -/
def inflate (bytes : List UInt8) : Except IoError (List UInt8) :=
  match (({} : Inflater).feed bytes).exhaust with
  | (s, .finished) => .ok s.decoded
  | (_, .corrupt) => .error .corruptDeflate
  | (_, .starved) | (_, .enough) => .error .incompleteDeflate

end BackupRestore.Deflate
