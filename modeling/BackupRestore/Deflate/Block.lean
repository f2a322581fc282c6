/-
Module: BackupRestore.Deflate.Block
Purpose: The headers of compressed blocks and the items within them.
Main exports: BlockHeader, readBlockHeader, Item, readItem
-/
import BackupRestore.Deflate.PrefixCode

namespace BackupRestore.Deflate

/-- How the bytes of a block are written. -/
inductive BlockBody where
  /-- Byte by byte, this many. -/
  | stored (length : Nat)
  /-- As items, in two prefix codes. -/
  | coded (literals distances : PrefixCode)
deriving Repr, Inhabited, DecidableEq

/-- The header of a block. -/
structure BlockHeader where
  isLast : Bool
  body : BlockBody
deriving Repr, Inhabited, DecidableEq

/-- One item of a coded block. -/
inductive Item where
  | literal (byte : UInt8)
  /-- Repeat `length` bytes from `distance` bytes back. -/
  | copy (length distance : Nat)
  | endOfBlock
deriving Repr, Inhabited, DecidableEq

/-- The lengths of the words in the literal code that needs no description. -/
def fixedLiteralLengths : List Nat :=
  List.replicate 144 8 ++ List.replicate 112 9 ++ List.replicate 24 7 ++ List.replicate 8 8

/-- The literal code that needs no description. -/
def fixedLiterals : PrefixCode := (PrefixCode.ofLengths? fixedLiteralLengths).getD .vacant

/-- The distance code that needs no description. -/
def fixedDistances : PrefixCode :=
  (PrefixCode.ofLengths? (List.replicate 32 5)).getD .vacant

/-- The order in which the word lengths of the length code are written. -/
def lengthCodeOrder : List Nat :=
  [16, 17, 18, 0, 8, 7, 9, 6, 10, 5, 11, 4, 12, 3, 13, 2, 14, 1, 15]

/-- For each length symbol, the shortest length and how many bits are added. -/
def lengthRanges : List (Nat × Nat) :=
  [(3, 0), (4, 0), (5, 0), (6, 0), (7, 0), (8, 0), (9, 0), (10, 0), (11, 1), (13, 1),
    (15, 1), (17, 1), (19, 2), (23, 2), (27, 2), (31, 2), (35, 3), (43, 3), (51, 3), (59, 3),
    (67, 4), (83, 4), (99, 4), (115, 4), (131, 5), (163, 5), (195, 5), (227, 5), (258, 0)]

/-- For each distance symbol, the shortest distance and how many bits are added. -/
def distanceRanges : List (Nat × Nat) :=
  [(1, 0), (2, 0), (3, 0), (4, 0), (5, 1), (7, 1), (9, 2), (13, 2), (17, 3), (25, 3),
    (33, 4), (49, 4), (65, 5), (97, 5), (129, 6), (193, 6), (257, 7), (385, 7), (513, 8),
    (769, 8), (1025, 9), (1537, 9), (2049, 10), (3073, 10), (4097, 11), (6145, 11),
    (8193, 12), (12289, 12), (16385, 13), (24577, 13)]

/-- Read `n` numbers of three bits. -/
def readTriples : (n : Nat) → BitSource → Parsed (List Nat)
  | 0, s => .done [] s
  | n + 1, s =>
      (s.number 3).bind fun value s =>
        (readTriples n s).bind fun values s => .done (value :: values) s

/-- Some word lengths in a row that are equal. -/
structure LengthRun where
  /-- How many there are beyond the first. -/
  more : Nat
  /-- The length, unless it is the one before. -/
  length : Option Nat
deriving Repr, Inhabited, DecidableEq

/-- Read a run of word lengths.  The first sixteen symbols stand for themselves,
the others for repetitions: of the length before, and of zero. -/
def readRun (code : PrefixCode) (s : BitSource) : Parsed LengthRun :=
  (code.decode s).bind fun symbol s =>
    if symbol < 16 then .done { more := 0, length := some symbol } s
    else if symbol = 16 then
      (s.number 2).bind fun extra s => .done { more := extra + 2, length := none } s
    else if symbol = 17 then
      (s.number 3).bind fun extra s => .done { more := extra + 2, length := some 0 } s
    else
      (s.number 7).bind fun extra s => .done { more := extra + 10, length := some 0 } s

/-- Read `left` word lengths.  No run may go beyond the last of them. -/
def readLengths (code : PrefixCode) (left : Nat) (before : Option Nat) (s : BitSource) :
    Parsed (List Nat) :=
  if left = 0 then .done [] s
  else
    (readRun code s).bind fun run s =>
      match run.length.or before with
      | none => .corrupt
      | some length =>
          if left < run.more + 1 then .corrupt
          else
            (readLengths code (left - (run.more + 1)) (some length) s).bind fun lengths s =>
              .done (List.replicate (run.more + 1) length ++ lengths) s
termination_by left

/-- The code in which word lengths are written.  If it has no word, every bit
reads as the length zero. -/
def lengthCode? (triples : List Nat) : Option PrefixCode :=
  let lengths := (List.range 19).map fun symbol =>
    ((lengthCodeOrder.zip triples).lookup symbol).getD 0
  if lengths.all (· == 0) then some { zero := .leaf 0, one := .leaf 0 }
  else
    match PrefixCode.build? lengths with
    | some (code, true) => some code
    | _ => none

/-- The two codes of a block with the given word lengths.  There must be a word
for the end of the block. -/
def blockCodes? (literalCount : Nat) (lengths : List Nat) : Option BlockBody :=
  let literalLengths := lengths.take literalCount
  if literalLengths.getD 256 0 = 0 then none
  else
    match PrefixCode.ofLengths? literalLengths,
        PrefixCode.ofLengths? (lengths.drop literalCount) with
    | some literals, some distances => some (.coded literals distances)
    | _, _ => none

/-- Read the description of two codes. -/
def readCodes (s : BitSource) : Parsed BlockBody :=
  (s.number 5).bind fun hlit s =>
  (s.number 5).bind fun hdist s =>
  (s.number 4).bind fun hclen s =>
    if 286 < hlit + 257 ∨ 30 < hdist + 1 then .corrupt
    else
      (readTriples (hclen + 4) s).bind fun triples s =>
        match lengthCode? triples with
        | none => .corrupt
        | some code =>
            (readLengths code (hlit + 257 + (hdist + 1)) none s).bind fun lengths s =>
              match blockCodes? (hlit + 257) lengths with
              | none => .corrupt
              | some body => .done body s

/-- Read the length of a stored block, which is written twice, the second time
with its bits inverted. -/
def readStored (s : BitSource) : Parsed BlockBody :=
  (s.align.number 16).bind fun length s =>
  (s.number 16).bind fun inverted s =>
    if length + inverted = 0xFFFF then .done (.stored length) s else .corrupt

/-- Read how a block is written. -/
def readBody (kind : Nat) (s : BitSource) : Parsed BlockBody :=
  match kind with
  | 0 => readStored s
  | 1 => .done (.coded fixedLiterals fixedDistances) s
  | 2 => readCodes s
  | _ => .corrupt

/-- Read the header of a block. -/
def readBlockHeader (s : BitSource) : Parsed BlockHeader :=
  (s.number 1).bind fun final s =>
  (s.number 2).bind fun kind s =>
  (readBody kind s).bind fun body s =>
    .done { isLast := final == 1, body } s

/-- Read the distance of a copy. -/
def readDistance (distances : PrefixCode) (length : Nat) (s : BitSource) : Parsed Item :=
  (distances.decode s).bind fun symbol s =>
    match distanceRanges[symbol]? with
    | none => .corrupt
    | some (least, width) =>
        (s.number width).bind fun extra s => .done (.copy length (least + extra)) s

/-- Read one item of a coded block. -/
def readItem (literals distances : PrefixCode) (s : BitSource) : Parsed Item :=
  (literals.decode s).bind fun symbol s =>
    if symbol < 256 then .done (.literal (UInt8.ofNat symbol)) s
    else if symbol = 256 then .done .endOfBlock s
    else
      match lengthRanges[symbol - 257]? with
      | none => .corrupt
      | some (least, width) =>
          (s.number width).bind fun extra s => readDistance distances (least + extra) s

theorem size_readTriples {n : Nat} {s rest : BitSource} {values : List Nat}
    (h : readTriples n s = .done values rest) : rest.size ≤ s.size := by
  induction n generalizing s rest values with
  | zero =>
    simp only [readTriples, Parsed.done.injEq] at h
    simp [h.2]
  | succ n ih =>
    rw [readTriples] at h
    obtain ⟨v, s₁, h₁, h⟩ := Parsed.bind_eq_done h
    obtain ⟨vs, s₂, h₂, h⟩ := Parsed.bind_eq_done h
    simp only [Parsed.done.injEq] at h
    have := BitSource.size_number h₁
    have := ih h₂
    rw [← h.2]
    omega

theorem size_readRun {code : PrefixCode} {s rest : BitSource} {run : LengthRun}
    (h : readRun code s = .done run rest) : rest.size < s.size := by
  unfold readRun at h
  obtain ⟨symbol, s₁, h₁, h⟩ := Parsed.bind_eq_done h
  have := PrefixCode.size_decode h₁
  repeat' split at h
  · simp only [Parsed.done.injEq] at h
    rw [← h.2]
    omega
  all_goals
    obtain ⟨extra, s₂, h₂, h⟩ := Parsed.bind_eq_done h
    have := BitSource.size_number h₂
    simp only [Parsed.done.injEq] at h
    rw [← h.2]
    omega

theorem size_readLengths {code : PrefixCode} {left : Nat} {before : Option Nat}
    {s rest : BitSource} {lengths : List Nat}
    (h : readLengths code left before s = .done lengths rest) : rest.size ≤ s.size := by
  induction left using Nat.strongRecOn generalizing before s rest lengths with
  | _ left ih =>
    rw [readLengths] at h
    split at h
    · simp only [Parsed.done.injEq] at h
      simp [h.2]
    · obtain ⟨run, s₁, h₁, h⟩ := Parsed.bind_eq_done h
      have := size_readRun h₁
      split at h
      · simp at h
      · split at h
        · simp at h
        · obtain ⟨ls, s₂, h₂, h⟩ := Parsed.bind_eq_done h
          simp only [Parsed.done.injEq] at h
          have := ih _ (by omega) h₂
          rw [← h.2]
          omega

theorem size_readCodes {s rest : BitSource} {body : BlockBody}
    (h : readCodes s = .done body rest) : rest.size ≤ s.size := by
  unfold readCodes at h
  obtain ⟨hlit, s₁, h₁, h⟩ := Parsed.bind_eq_done h
  obtain ⟨hdist, s₂, h₂, h⟩ := Parsed.bind_eq_done h
  obtain ⟨hclen, s₃, h₃, h⟩ := Parsed.bind_eq_done h
  have := BitSource.size_number h₁
  have := BitSource.size_number h₂
  have := BitSource.size_number h₃
  split at h
  · simp at h
  · obtain ⟨triples, s₄, h₄, h⟩ := Parsed.bind_eq_done h
    have := size_readTriples h₄
    split at h
    · simp at h
    · obtain ⟨lengths, s₅, h₅, h⟩ := Parsed.bind_eq_done h
      have := size_readLengths h₅
      split at h
      · simp at h
      · simp only [Parsed.done.injEq] at h
        rw [← h.2]
        omega

theorem size_readStored {s rest : BitSource} {body : BlockBody}
    (h : readStored s = .done body rest) : rest.size ≤ s.size := by
  unfold readStored at h
  obtain ⟨length, s₁, h₁, h⟩ := Parsed.bind_eq_done h
  obtain ⟨inverted, s₂, h₂, h⟩ := Parsed.bind_eq_done h
  have := BitSource.size_number h₁
  have := BitSource.size_number h₂
  have := BitSource.size_align_le s
  split at h
  · simp only [Parsed.done.injEq] at h
    rw [← h.2]
    omega
  · simp at h

theorem size_readBody {kind : Nat} {s rest : BitSource} {body : BlockBody}
    (h : readBody kind s = .done body rest) : rest.size ≤ s.size := by
  unfold readBody at h
  split at h
  · exact size_readStored h
  · simp only [Parsed.done.injEq] at h
    simp [h.2]
  · exact size_readCodes h
  · simp at h

theorem size_readBlockHeader {s rest : BitSource} {header : BlockHeader}
    (h : readBlockHeader s = .done header rest) : rest.size < s.size := by
  unfold readBlockHeader at h
  obtain ⟨final, s₁, h₁, h⟩ := Parsed.bind_eq_done h
  obtain ⟨kind, s₂, h₂, h⟩ := Parsed.bind_eq_done h
  obtain ⟨body, s₃, h₃, h⟩ := Parsed.bind_eq_done h
  simp only [Parsed.done.injEq] at h
  have := BitSource.size_number h₁
  have := BitSource.size_number h₂
  have := size_readBody h₃
  rw [← h.2]
  omega

theorem size_readDistance {distances : PrefixCode} {length : Nat} {s rest : BitSource}
    {item : Item} (h : readDistance distances length s = .done item rest) :
    rest.size ≤ s.size := by
  unfold readDistance at h
  obtain ⟨symbol, s₁, h₁, h⟩ := Parsed.bind_eq_done h
  have := PrefixCode.size_decode h₁
  split at h
  · simp at h
  · obtain ⟨extra, s₂, h₂, h⟩ := Parsed.bind_eq_done h
    have := BitSource.size_number h₂
    simp only [Parsed.done.injEq] at h
    rw [← h.2]
    omega

/-- The most bytes that one item stands for. -/
def itemLimit : Nat := 258

theorem lengthRanges_le : ∀ range ∈ lengthRanges, range.1 + Nat.pow 2 range.2 ≤ itemLimit + 1 := by
  decide

theorem copy_length_readDistance {distances : PrefixCode} {known length distance : Nat}
    {s rest : BitSource} (h : readDistance distances known s = .done (.copy length distance) rest) :
    length = known := by
  unfold readDistance at h
  obtain ⟨symbol, s₁, h₁, h⟩ := Parsed.bind_eq_done h
  split at h
  · simp at h
  · obtain ⟨extra, s₂, h₂, h⟩ := Parsed.bind_eq_done h
    simp only [Parsed.done.injEq, Item.copy.injEq] at h
    exact h.1.1.symm

/-- No copy is longer than the limit. -/
theorem copy_length_le {literals distances : PrefixCode} {length distance : Nat}
    {s rest : BitSource}
    (h : readItem literals distances s = .done (.copy length distance) rest) :
    length ≤ itemLimit := by
  unfold readItem at h
  obtain ⟨symbol, s₁, h₁, h⟩ := Parsed.bind_eq_done h
  split at h
  · simp at h
  · split at h
    · simp at h
    · split at h
      · simp at h
      · rename_i least width hr
        obtain ⟨extra, s₂, h₂, h⟩ := Parsed.bind_eq_done h
        have := BitSource.number_lt h₂
        have := lengthRanges_le (least, width) (List.mem_of_getElem? hr)
        have := copy_length_readDistance h
        simp only at *
        omega

theorem size_readItem {literals distances : PrefixCode} {s rest : BitSource} {item : Item}
    (h : readItem literals distances s = .done item rest) : rest.size < s.size := by
  unfold readItem at h
  obtain ⟨symbol, s₁, h₁, h⟩ := Parsed.bind_eq_done h
  have := PrefixCode.size_decode h₁
  split at h
  · simp only [Parsed.done.injEq] at h
    rw [← h.2]
    omega
  · split at h
    · simp only [Parsed.done.injEq] at h
      rw [← h.2]
      omega
    · split at h
      · simp at h
      · obtain ⟨extra, s₂, h₂, h⟩ := Parsed.bind_eq_done h
        have := BitSource.size_number h₂
        have := size_readDistance h
        omega

end BackupRestore.Deflate
