/-
Module: BackupRestore.Text.Quoted
Purpose: A text between quotes, in which every character can be seen.
Main exports: escapeChar, quoted
-/
import BackupRestore.Text.Printable

namespace BackupRestore.Text

/-- A character inside quotes.  A quote, a backslash and some controls are written
with a backslash; what does not show itself is written as its code point. -/
def escapeChar (c : Char) : List Char :=
  match c with
  | '"' => ['\\', '"']
  | '\\' => ['\\', '\\']
  | '\t' => ['\\', 't']
  | '\n' => ['\\', 'n']
  | '\r' => ['\\', 'r']
  | '\x00' => ['\\', '0']
  | c =>
      if isPrintable c then [c]
      else ['\\', 'u', '\x7b'] ++ Nat.toDigits 16 c.toNat ++ ['\x7d']

/-- A text between quotes. -/
def quoted (text : String) : String :=
  String.ofList ('"' :: text.toList.flatMap escapeChar ++ ['"'])

end BackupRestore.Text
