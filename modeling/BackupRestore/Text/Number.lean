/-
Module: BackupRestore.Text.Number
Purpose: Reading whole numbers from texts.
Main exports: isBlank, trimBlank, NumberFault, parseWord64, digitValue?
-/

namespace BackupRestore.Text

/-- The characters that Unicode counts as white space. -/
def isBlank (c : Char) : Bool :=
  let n := c.toNat
  (9 ≤ n && n ≤ 13) || n == 0x20 || n == 0x85 || n == 0xA0 || n == 0x1680 ||
    (0x2000 ≤ n && n ≤ 0x200A) || n == 0x2028 || n == 0x2029 || n == 0x202F ||
    n == 0x205F || n == 0x3000

/-- The text without the blanks at both ends. -/
def trimBlank (text : String) : String :=
  String.ofList (((text.toList.dropWhile isBlank).reverse.dropWhile isBlank).reverse)

/-- The value of a digit, if it is one in this base. -/
def digitValue? (base : Nat) (c : Char) : Option Nat :=
  let value? :=
    if '0' ≤ c ∧ c ≤ '9' then some (c.toNat - '0'.toNat)
    else if 'a' ≤ c ∧ c ≤ 'z' then some (c.toNat - 'a'.toNat + 10)
    else if 'A' ≤ c ∧ c ≤ 'Z' then some (c.toNat - 'A'.toNat + 10)
    else none
  value?.filter (· < base)

/-- The number that some digits spell, if all of them are digits of this base and
there is at least one. -/
def digits? (base : Nat) (chars : List Char) : Option Nat :=
  if chars.isEmpty then none
  else
    chars.foldl
      (fun number c => number.bind fun n => (digitValue? base c).map (n * base + ·)) (some 0)

/-- Why a text is not a whole number of 64 bits. -/
inductive NumberFault where
  | empty
  | badDigit
  | tooLarge
deriving Repr, Inhabited, DecidableEq

/-- The wording of the fault. -/
def NumberFault.message : NumberFault → String
  | .empty => "cannot parse integer from empty string"
  | .badDigit => "invalid digit found in string"
  | .tooLarge => "number too large to fit in target type"

/-- The bound of whole numbers of 64 bits. -/
def word64Bound : Nat := 0x10000000000000000

/-- Read digits from the left.  A number that is too large is noticed at the digit
that makes it so, before the digits behind it are looked at. -/
def readDecimal (number : Nat) : List Char → Except NumberFault Nat
  | [] => .ok number
  | c :: rest =>
      if word64Bound ≤ number * 10 then
        match digitValue? 10 c with
        | none => .error .badDigit
        | some _ => .error .tooLarge
      else
        match digitValue? 10 c with
        | none => .error .badDigit
        | some digit =>
            if word64Bound ≤ number * 10 + digit then .error .tooLarge
            else readDecimal (number * 10 + digit) rest

/-- The whole number of 64 bits that a text spells in decimal; a plus sign may
stand in front. -/
def parseWord64 (text : String) : Except NumberFault Nat :=
  match text.toList with
  | [] => .error .empty
  | ['+'] | ['-'] => .error .badDigit
  | '+' :: digits => readDecimal 0 digits
  | digits => readDecimal 0 digits

end BackupRestore.Text
