/-
Module: BackupRestore.Text.Utf8
Purpose: Texts as bytes, and bytes as texts even where they are damaged.
Main exports: utf8Bytes, decodeUtf8?, decodeUtf8Lossy, replacementChar
-/

namespace BackupRestore.Text

/-- The bytes of a text. -/
def utf8Bytes (text : String) : List UInt8 :=
  text.toList.flatMap String.utf8EncodeChar

/-- The character that stands for bytes that spell none. -/
def replacementChar : Char := '\uFFFD'

/-- What stands at the beginning of some bytes. -/
inductive Lead where
  /-- A character, and the bytes after it. -/
  | char (c : Char) (rest : List UInt8)
  /-- The longest beginning that could have become a character ends here. -/
  | damaged (rest : List UInt8)
deriving Repr, Inhabited, DecidableEq

/-- A byte that continues a character. -/
def isContinuation (b : UInt8) : Bool := 0x80 ≤ b && b ≤ 0xBF

/-- The six bits that a continuation byte adds. -/
def continuationBits (b : UInt8) : Nat := b.toNat % 64

/-- The bytes that may stand second, for a first byte of three or four. -/
def secondRange (lead : UInt8) : UInt8 × UInt8 :=
  if lead = 0xE0 then (0xA0, 0xBF)
  else if lead = 0xED then (0x80, 0x9F)
  else if lead = 0xF0 then (0x90, 0xBF)
  else if lead = 0xF4 then (0x80, 0x8F)
  else (0x80, 0xBF)

/-- A character of two bytes. -/
def twoBytes (lead : UInt8) : List UInt8 → Lead
  | b :: rest =>
      if isContinuation b then
        .char (Char.ofNat (lead.toNat % 32 * 64 + continuationBits b)) rest
      else .damaged (b :: rest)
  | [] => .damaged []

/-- A character of three bytes. -/
def threeBytes (lead : UInt8) : List UInt8 → Lead
  | b :: rest =>
      if (secondRange lead).1 ≤ b ∧ b ≤ (secondRange lead).2 then
        match rest with
        | c :: rest =>
            if isContinuation c then
              .char (Char.ofNat
                ((lead.toNat % 16 * 64 + continuationBits b) * 64 + continuationBits c)) rest
            else .damaged (c :: rest)
        | [] => .damaged []
      else .damaged (b :: rest)
  | [] => .damaged []

/-- A character of four bytes. -/
def fourBytes (lead : UInt8) : List UInt8 → Lead
  | b :: rest =>
      if (secondRange lead).1 ≤ b ∧ b ≤ (secondRange lead).2 then
        match rest with
        | c :: rest =>
            if isContinuation c then
              match rest with
              | d :: rest =>
                  if isContinuation d then
                    .char (Char.ofNat
                      (((lead.toNat % 8 * 64 + continuationBits b) * 64 + continuationBits c) * 64
                        + continuationBits d)) rest
                  else .damaged (d :: rest)
              | [] => .damaged []
            else .damaged (c :: rest)
        | [] => .damaged []
      else .damaged (b :: rest)
  | [] => .damaged []

/-- Read one character, or the longest piece that fails to become one. -/
def readChar (lead : UInt8) (rest : List UInt8) : Lead :=
  if lead < 0x80 then .char (Char.ofNat lead.toNat) rest
  else if 0xC2 ≤ lead ∧ lead ≤ 0xDF then twoBytes lead rest
  else if 0xE0 ≤ lead ∧ lead ≤ 0xEF then threeBytes lead rest
  else if 0xF0 ≤ lead ∧ lead ≤ 0xF4 then fourBytes lead rest
  else .damaged rest

/-- The bytes that are left. -/
def Lead.rest : Lead → List UInt8
  | .char _ rest => rest
  | .damaged rest => rest

theorem readChar_rest_length (lead : UInt8) (rest : List UInt8) :
    (readChar lead rest).rest.length ≤ rest.length := by
  unfold readChar twoBytes threeBytes fourBytes
  repeat' split
  all_goals simp only [Lead.rest, List.length_cons, List.length_nil]
  all_goals omega

theorem rest_length_lt {lead : UInt8} {rest : List UInt8} {found : Lead}
    (h : readChar lead rest = found) : found.rest.length < (lead :: rest).length := by
  have := readChar_rest_length lead rest
  rw [h] at this
  exact Nat.lt_succ_of_le this

/-- The characters that some bytes spell, the damaged pieces left out as `none`. -/
def readChars : List UInt8 → List (Option Char)
  | [] => []
  | lead :: rest =>
      match h : readChar lead rest with
      | .char c after =>
          have : after.length < (lead :: rest).length := rest_length_lt h
          some c :: readChars after
      | .damaged after =>
          have : after.length < (lead :: rest).length := rest_length_lt h
          none :: readChars after
termination_by bytes => bytes.length
decreasing_by all_goals assumption

/-- The text that some bytes spell, if they spell one. -/
def decodeUtf8? (bytes : List UInt8) : Option String :=
  let chars := readChars bytes
  if chars.all Option.isSome then some (String.ofList (chars.filterMap id)) else none

/-- The text that some bytes spell, each damaged piece shown as U+FFFD. -/
def decodeUtf8Lossy (bytes : List UInt8) : String :=
  String.ofList ((readChars bytes).map fun c => c.getD replacementChar)

end BackupRestore.Text
