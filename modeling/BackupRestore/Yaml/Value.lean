/-
Module: BackupRestore.Yaml.Value
Purpose: What a scalar means: the kinds of values, and how a value is named in a message.
Main exports: Real, Value, readUnsigned?, readInteger?, readReal?, Value.ofPlain, Value.describe
-/
import BackupRestore.Decimal.Shortest
import BackupRestore.Text.Number
import BackupRestore.Text.Quoted

namespace BackupRestore.Yaml

/-- A number with a fraction, or one that is no number of the line. -/
inductive Real where
  | finite (isNegative : Bool) (magnitude : Binary64)
  | infinite (isNegative : Bool)
  | notNumber
deriving Repr, Inhabited, DecidableEq

/-- The number in decimal, with the fewest digits that lead back to it. -/
def Real.describe : Real → String
  | finite isNegative magnitude => (if isNegative then "-" else "") ++ magnitude.shortest.positional
  | infinite isNegative => if isNegative then "-inf" else "inf"
  | notNumber => "NaN"

/-- What a scalar means. -/
inductive Value where
  | null
  | boolean (value : Bool)
  | integer (value : Int)
  | real (value : Real)
  | text (value : String)
deriving Repr, Inhabited, DecidableEq

/-- The spellings of the value that is absent. -/
def isNullWord (text : String) : Bool := ["null", "Null", "NULL", "~"].contains text

/-- The truth value that a text spells. -/
def readBoolean? (text : String) : Option Bool :=
  if ["true", "True", "TRUE"].contains text then some true
  else if ["false", "False", "FALSE"].contains text then some false
  else none

/-- Digits with a zero in front, perhaps behind a sign; they do not spell a number. -/
def isZeroPadded (chars : List Char) : Bool :=
  let digits :=
    match chars with
    | '-' :: rest | '+' :: rest => rest
    | _ => chars
  match digits with
  | '0' :: d :: rest => (d :: rest).all Char.isDigit
  | _ => false

/-- The number that digits spell in the base that stands in front of them. -/
def basedDigits? : List Char → Option Nat
  | '0' :: 'x' :: rest => Text.digits? 16 rest
  | '0' :: 'o' :: rest => Text.digits? 8 rest
  | '0' :: 'b' :: rest => Text.digits? 2 rest
  | digits => Text.digits? 10 digits

/-- The number without a minus sign that a text spells. -/
def readUnsigned? (chars : List Char) : Option Nat :=
  if isZeroPadded chars then none
  else
    match chars with
    | '+' :: rest => basedDigits? rest
    | _ => basedDigits? chars

/-- The number with a minus sign that a text spells, without its sign. -/
def readNegated? (chars : List Char) : Option Nat :=
  if isZeroPadded chars then none
  else
    match chars with
    | '-' :: rest => basedDigits? rest
    | _ => none

/-- The bound of whole numbers of 128 bits. -/
def word128Bound : Nat := 0x100000000000000000000000000000000

/-- The whole number of at most 128 bits that a text spells. -/
def readInteger? (chars : List Char) : Option Int :=
  match readUnsigned? chars with
  | some n => if n < word128Bound then some n else none
  | none =>
      match readNegated? chars with
      | some n => if 2 * n ≤ word128Bound then some (-(n : Int)) else none
      | none => none

/-- The exponent that stands at the end of a number. -/
def readExponent? : List Char → Option Int
  | [] => some 0
  | c :: rest =>
      if c == 'e' || c == 'E' then
        match rest with
        | '-' :: digits => (Text.digits? 10 digits).map fun n => -(n : Int)
        | '+' :: digits | digits => (Text.digits? 10 digits).map fun n => (n : Int)
      else none

/-- The decimal number that a text without a sign spells. -/
def readDecimal? (chars : List Char) : Option Decimal :=
  let whole := chars.takeWhile Char.isDigit
  let rest := chars.drop whole.length
  let (fraction, rest) :=
    match rest with
    | '.' :: rest =>
        let fraction := rest.takeWhile Char.isDigit
        (fraction, rest.drop fraction.length)
    | _ => ([], rest)
  match Text.digits? 10 (whole ++ fraction), readExponent? rest with
  | some digits, some exponent => some ⟨digits, exponent - fraction.length⟩
  | _, _ => none

/-- The number with a fraction that a text spells.  One that is too large for the
format is none. -/
def readReal? (text : String) : Option Real :=
  let finite (isNegative : Bool) (chars : List Char) : Option Real :=
    ((readDecimal? chars).bind Decimal.nearest?).map (Real.finite isNegative)
  if [".inf", ".Inf", ".INF", "+.inf", "+.Inf", "+.INF"].contains text then some (.infinite false)
  else if ["-.inf", "-.Inf", "-.INF"].contains text then some (.infinite true)
  else if [".nan", ".NaN", ".NAN"].contains text then some .notNumber
  else
    match text.toList with
    | '+' :: rest => finite false rest
    | '-' :: rest => finite true rest
    | chars => finite false chars

namespace Value

/-- What a plain scalar without a tag means. -/
def ofPlain (text : String) : Value :=
  if text.isEmpty || isNullWord text then .null
  else
    match readBoolean? text, readInteger? text.toList with
    | some b, _ => .boolean b
    | none, some n => .integer n
    | none, none =>
        if isZeroPadded text.toList then .text text
        else
          match readReal? text with
          | some r => .real r
          | none => .text text

/-- The value as it is named in a message. -/
def describe : Value → String
  | null => "unit value"
  | boolean b => "boolean \x60" ++ (if b then "true" else "false") ++ "\x60"
  | integer n =>
      "integer \x60" ++ toString n ++ "\x60" ++
        (if Text.word64Bound ≤ n then " as u128"
          else if 2 * n < -Text.word64Bound then " as i128"
          else "")
  | real r => "floating point \x60" ++ r.describe ++ "\x60"
  | text s => "string " ++ Text.quoted s

end Value

end BackupRestore.Yaml
