/-
Module: BackupRestore.KeyName
Purpose: Record keys as texts that are safe in an entry name.
Main exports: KeyName.encode, KeyName.decode, KeyName.Fault
-/
import BackupRestore.Error
import BackupRestore.Text.Utf8

namespace BackupRestore.KeyName

/-!
A key is any sequence of bytes.  Its name spells three bytes by four symbols of
six bits, from an alphabet without the separator of entry names.  Nothing is
written to fill up the last group; a reader accepts such padding as well.
-/

/-- The symbol for six bits. -/
def symbol (bits : Nat) : Char :=
  if bits < 26 then Char.ofNat (65 + bits)
  else if bits < 52 then Char.ofNat (97 + (bits - 26))
  else if bits < 62 then Char.ofNat (48 + (bits - 52))
  else if bits = 62 then '-'
  else '_'

/-- The six bits for which a byte stands. -/
def sextet? (byte : UInt8) : Option Nat :=
  let n := byte.toNat
  if 65 ≤ n ∧ n ≤ 90 then some (n - 65)
  else if 97 ≤ n ∧ n ≤ 122 then some (n - 97 + 26)
  else if 48 ≤ n ∧ n ≤ 57 then some (n - 48 + 52)
  else if n = 45 then some 62
  else if n = 95 then some 63
  else none

/-- The symbols of a key. -/
def encodeChars : List UInt8 → List Char
  | a :: b :: c :: rest =>
      let n := (a.toNat * 256 + b.toNat) * 256 + c.toNat
      symbol (n / 262144) :: symbol (n / 4096 % 64) :: symbol (n / 64 % 64) ::
        symbol (n % 64) :: encodeChars rest
  | [a, b] =>
      let n := (a.toNat * 256 + b.toNat) * 4
      [symbol (n / 4096), symbol (n / 64 % 64), symbol (n % 64)]
  | [a] =>
      let n := a.toNat * 16
      [symbol (n / 64), symbol (n % 64)]
  | [] => []

/-- The name of a key. -/
def encode (key : List UInt8) : String :=
  String.ofList (encodeChars key)

/-- Why a text is not the name of a key.  Positions count bytes. -/
inductive Fault where
  /-- A byte that is no symbol, or padding where none may stand. -/
  | badSymbol (position : Nat) (byte : UInt8)
  /-- The last group has a single symbol. -/
  | badLength (length : Nat)
  /-- The last symbol carries bits that belong to no byte. -/
  | badLastSymbol (position : Nat) (byte : UInt8)
deriving Repr, Inhabited, DecidableEq

/-- The wording of the fault. -/
def Fault.message : Fault → String
  | .badSymbol position byte =>
      "Invalid symbol " ++ toString byte.toNat ++ ", offset " ++ toString position ++ "."
  | .badLength length => "Invalid input length: " ++ toString length
  | .badLastSymbol position byte =>
      "Invalid last symbol " ++ toString byte.toNat ++ ", offset " ++ toString position ++ "."

/-- The byte that fills up a last group. -/
def padding : UInt8 := 61

/-- What has been read of the last group: the six-bit values, the last symbol
and how many padding bytes follow. -/
structure LastGroup where
  values : List Nat
  final : UInt8
  padded : Nat
deriving Repr, Inhabited, DecidableEq

/-- Read the bytes of the last group, which begins at `start`. -/
def readLast (start : Nat) (group : LastGroup) : List UInt8 → Except Fault LastGroup
  | [] => .ok group
  | byte :: rest =>
      let position := start + group.values.length + group.padded
      if byte = padding then
        if group.values.length + group.padded < 2 then .error (.badSymbol position byte)
        else readLast start { group with padded := group.padded + 1 } rest
      else if 0 < group.padded then
        .error (.badSymbol (start + group.values.length) padding)
      else
        match sextet? byte with
        | none => .error (.badSymbol position byte)
        | some value =>
            readLast start { values := group.values ++ [value], final := byte, padded := 0 } rest

/-- The bytes that the last group spells, or the fault in its spare bits. -/
def closeLast (start : Nat) (group : LastGroup) : Except Fault (List UInt8) :=
  match group.values with
  | [p, q, r, s] =>
      let n := ((p * 64 + q) * 64 + r) * 64 + s
      .ok [UInt8.ofNat (n / 65536), UInt8.ofNat (n / 256 % 256), UInt8.ofNat (n % 256)]
  | [p, q, r] =>
      if r % 4 = 0 then
        let n := ((p * 64 + q) * 64 + r) / 4
        .ok [UInt8.ofNat (n / 256), UInt8.ofNat (n % 256)]
      else .error (.badLastSymbol (start + 2) group.final)
  | [p, q] =>
      if q % 16 = 0 then .ok [UInt8.ofNat ((p * 64 + q) / 16)]
      else .error (.badLastSymbol (start + 1) group.final)
  | values => .error (.badLength (start + values.length))

/-- The value of a symbol at a position where only a symbol may stand. -/
def symbolAt (position : Nat) (byte : UInt8) : Except Fault Nat :=
  match sextet? byte with
  | some value => .ok value
  | none => .error (.badSymbol position byte)

/-- Read a name from `start` on: complete groups of four symbols, then the last
group of one to four bytes. -/
def decodeFrom (start : Nat) : List UInt8 → Except Fault (List UInt8)
  | a :: b :: c :: d :: next :: rest => do
      let p ← symbolAt start a
      let q ← symbolAt (start + 1) b
      let r ← symbolAt (start + 2) c
      let s ← symbolAt (start + 3) d
      let n := ((p * 64 + q) * 64 + r) * 64 + s
      let tail ← decodeFrom (start + 4) (next :: rest)
      return UInt8.ofNat (n / 65536) :: UInt8.ofNat (n / 256 % 256) :: UInt8.ofNat (n % 256) :: tail
  | [] => .ok []
  | lastBytes => do
      closeLast start (← readLast start { values := [], final := 0, padded := 0 } lastBytes)

/-- A byte that is neither a symbol nor padding, alone in the last group, is
reported before anything else. -/
def strayEnd? (bytes : List UInt8) : Option Fault :=
  if bytes.length % 4 = 1 then
    match bytes.getLast? with
    | some byte =>
        if byte ≠ padding ∧ sextet? byte = none then
          some (.badSymbol (bytes.length - 1) byte)
        else none
    | none => none
  else none

/-- The key that the bytes of a name spell. -/
def decodeBytes (bytes : List UInt8) : Except Fault (List UInt8) :=
  match strayEnd? bytes with
  | some fault => .error fault
  | none => decodeFrom 0 bytes

/-- The key that a name spells. -/
def decode (name : String) : Except RestoreError (List UInt8) :=
  match decodeBytes (Text.utf8Bytes name) with
  | .ok key => .ok key
  | .error fault => .error (.keyDecode name fault.message)

end BackupRestore.KeyName
