/-
Module: BackupRestore.Yaml.Place
Purpose: Places in a text, the characters that matter in it, and faults found there.
Main exports: Place, Source, SyntaxFault, SyntaxFault.message
-/

namespace BackupRestore.Yaml

/-- A place in a text; lines and columns are counted from zero, columns in characters. -/
structure Place where
  /-- How many bytes lie before it. -/
  index : Nat := 0
  line : Nat := 0
  column : Nat := 0
deriving Repr, Inhabited, DecidableEq

namespace Place

/-- The place behind a character that does not end the line. -/
def next (p : Place) (c : Char) : Place :=
  { p with index := p.index + c.utf8Size, column := p.column + 1 }

/-- The place behind a character that ends the line. -/
def nextLine (p : Place) (c : Char) : Place :=
  { index := p.index + c.utf8Size, line := p.line + 1, column := 0 }

/-- The place behind the two characters that together end a line. -/
def nextLinePair (p : Place) : Place := (p.next '\r').nextLine '\n'

/-- The very beginning of a text. -/
def isOrigin (p : Place) : Bool := p.line == 0 && p.column == 0

/-- The place as it is reported. -/
def describe (p : Place) : String :=
  "line " ++ toString (p.line + 1) ++ " column " ++ toString (p.column + 1)

/-- The place as it follows a message; the very beginning is not mentioned. -/
def suffix (p : Place) : String := if p.isOrigin then "" else " at " ++ p.describe

end Place

/-- A violation of the syntax, and what was being read. -/
structure SyntaxFault where
  problem : String
  place : Place := {}
  context : Option (String × Place) := none
  /-- How many bytes lie before the fault, if it was found before lines were counted. -/
  offset : Nat := 0
deriving Repr, Inhabited, DecidableEq

/-- The wording of the fault. -/
def SyntaxFault.message (f : SyntaxFault) : String :=
  f.problem ++
    (if f.offset = 0 then f.place.suffix else " at position " ++ toString f.offset) ++
    match f.context with
    | none => ""
    | some (doing, place) =>
        ", " ++ doing ++
          (if place.line = f.place.line ∧ place.column = f.place.column then "" else place.suffix)

/-- A character that may stand in a text at all. -/
def isAllowed (c : Char) : Bool :=
  let n := c.toNat
  n == 9 || n == 10 || n == 13 || (0x20 ≤ n && n ≤ 0x7E) || n == 0x85 ||
    (0xA0 ≤ n && n ≤ 0xD7FF) || (0xE000 ≤ n && n ≤ 0xFFFD) || 0x10000 ≤ n

/-- A character that ends a line. -/
def isBreak (c : Char) : Bool :=
  c == '\n' || c == '\r' || c == '\u0085' || c == '\u2028' || c == '\u2029'

/-- A space or a tab. -/
def isSpace (c : Char) : Bool := c == ' ' || c == '\t'

/-- A character of a name. -/
def isWord (c : Char) : Bool := c.isAlphanum || c == '-' || c == '_'

/-- What a line break becomes in the value of a scalar. -/
def breakValue (c : Char) : Char :=
  if c == '\u2028' || c == '\u2029' then c else '\n'

/-- The text ends here, or its first character separates words. -/
def startsBlank : List Char → Bool
  | [] => true
  | c :: _ => isSpace c || isBreak c

/-- The text ends here, or its first character ends the line. -/
def startsBreak : List Char → Bool
  | [] => true
  | c :: _ => isBreak c

/-- A line begins with three such characters and then a blank. -/
def isMarker (p : Place) (mark : Char) : List Char → Bool
  | a :: b :: c :: rest =>
      p.column == 0 && a == mark && b == mark && c == mark && startsBlank rest
  | _ => false

/-- How many characters are looked at to tell a marker. -/
def markerWidth : Nat := 4

/-- A line begins with the marker of a document's start or end. -/
def isDocumentMarker (p : Place) (chars : List Char) : Bool :=
  isMarker p '-' chars || isMarker p '.' chars

/-- A text that is being read. -/
structure Source where
  rest : List Char
  place : Place := {}
deriving Repr, Inhabited, DecidableEq

namespace Source

/-- The next character. -/
def head? (s : Source) : Option Char := s.rest.head?

/-- The character `n` places further on. -/
def ahead? (s : Source) (n : Nat) : Option Char := s.rest[n]?

/-- The source behind a character that does not end the line. -/
def skip (s : Source) : Source :=
  match s.rest with
  | c :: rest => { rest, place := s.place.next c }
  | [] => s

/-- The source behind `n` such characters. -/
def skipN (s : Source) : Nat → Source
  | 0 => s
  | n + 1 => s.skip.skipN n

/-- The source behind the end of the line, if it stands here. -/
def skipBreak (s : Source) : Source :=
  match s.rest with
  | '\r' :: '\n' :: rest => { rest, place := s.place.nextLinePair }
  | c :: rest => if isBreak c then { rest, place := s.place.nextLine c } else s
  | [] => s

/-- The characters from here on that pass a test, none of which ends a line, and
the source behind them. -/
def takeWhile (s : Source) (test : Char → Bool) : List Char × Source :=
  let taken := s.rest.takeWhile test
  (taken, { rest := s.rest.drop taken.length, place := taken.foldl Place.next s.place })

/-- The source behind spaces and tabs. -/
def skipSpaces (s : Source) : Source := (s.takeWhile isSpace).2

/-- The source behind a comment, at the end of its line. -/
def skipComment (s : Source) : Source :=
  if s.head? = some '#' then (s.takeWhile (!isBreak ·)).2 else s

end Source

/-- A fault at the place that has been reached. -/
def Source.fault (s : Source) (doing : String) (since : Place) (problem : String) : SyntaxFault :=
  { problem, place := s.place, context := some (doing, since) }

end BackupRestore.Yaml
