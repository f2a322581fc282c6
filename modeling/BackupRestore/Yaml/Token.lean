/-
Module: BackupRestore.Yaml.Token
Purpose: The tokens of a document, and reading those that stand alone.
Main exports: TokenKind, Token, readAnchor, readTag, readDirective
-/
import BackupRestore.Text.Utf8
import BackupRestore.Yaml.Scalar

namespace BackupRestore.Yaml

/-- What a token is. -/
inductive TokenKind where
  | streamStart
  | streamEnd
  | versionDirective (major minor : Nat)
  | tagDirective (handle expansion : String)
  | documentStart
  | documentEnd
  | blockSequenceStart
  | blockMappingStart
  | blockEnd
  | flowSequenceStart
  | flowSequenceEnd
  | flowMappingStart
  | flowMappingEnd
  | blockEntry
  | flowEntry
  | key
  | value
  | reference (name : String)
  | anchor (name : String)
  | tag (handle suffix : String)
  | scalar (text : String) (style : ScalarStyle)
deriving Repr, Inhabited, DecidableEq

/-- A token and where it stands. -/
structure Token where
  kind : TokenKind
  start : Place
  stop : Place
deriving Repr, Inhabited, DecidableEq

/-- Read the name of an anchor or an alias behind its indicator. -/
def readAnchor (isReference : Bool) (start : Place) (s : Source) : Except SyntaxFault (TokenKind × Source) :=
  let (name, s) := s.takeWhile isWord
  let ends :=
    startsBlank s.rest ||
      s.head?.any fun c => ['?', ':', ',', ']', '}', '%', '@', '`'].contains c
  if name.isEmpty || !ends then
    .error (s.fault (if isReference then "while scanning an alias" else "while scanning an anchor") start
      "did not find expected alphabetic or numeric character")
  else
    let name := String.ofList name
    .ok (if isReference then .reference name else .anchor name, s)

/-- Read a tag's handle: a mark, perhaps a name and a second mark. -/
def readHandle (inDirective : Bool) (start : Place) (s : Source) : Except SyntaxFault (String × Source) :=
  let doing := if inDirective then "while scanning a tag directive" else "while scanning a tag"
  if s.head? ≠ some '!' then .error (s.fault doing start "did not find expected '!'")
  else
    let (name, s) := s.skip.takeWhile isWord
    if s.head? = some '!' then .ok (String.ofList ('!' :: name ++ ['!']), s.skip)
    else if inDirective && !name.isEmpty then
      .error (s.fault "while parsing a tag directive" start "did not find expected '!'")
    else .ok (String.ofList ('!' :: name), s)

/-- A character that stands for itself in a tag. -/
def isTagChar (full : Bool) (c : Char) : Bool :=
  isWord c || [';', '/', '?', ':', '@', '&', '=', '+', '$', '.', '!', '~', '*', '\'',
    '(', ')'].contains c || (full && [',', '[', ']'].contains c)

/-- How many bytes a character has that begins with this one. -/
def spelledWidth? (lead : Nat) : Option Nat :=
  if lead < 0x80 then some 1
  else if lead / 0x20 = 0b110 then some 2
  else if lead / 0x10 = 0b1110 then some 3
  else if lead / 0x08 = 0b11110 then some 4
  else none

/-- The bytes of a tag, up to a character that a tag may not contain.  A percent sign
and two digits spell a byte; a character is spelled as a whole, so `more` bytes of one
that has begun must follow.  `fault` reports a problem at a place. -/
def tagBytes (full : Bool) (fault : Source → String → SyntaxFault) (more : Nat)
    (latestFirst : List UInt8) (place : Place) :
    List Char → Except SyntaxFault (List UInt8 × Source)
  | [] =>
      if more = 0 then .ok (latestFirst.reverse, { rest := [], place })
      else .error (fault { rest := [], place } "did not find URI escaped octet")
  | c :: rest =>
      let here : Source := { rest := c :: rest, place }
      if c == '%' then
        match rest with
        | a :: b :: rest =>
            match Text.digitValue? 16 a, Text.digitValue? 16 b, more with
            | some high, some low, 0 =>
                match spelledWidth? (high * 16 + low) with
                | some width =>
                    tagBytes full fault (width - 1) (UInt8.ofNat (high * 16 + low) :: latestFirst)
                      (((place.next c).next a).next b) rest
                | none => .error (fault here "found an incorrect leading UTF-8 octet")
            | some high, some low, more + 1 =>
                if high / 4 = 0b10 then
                  tagBytes full fault more (UInt8.ofNat (high * 16 + low) :: latestFirst)
                    (((place.next c).next a).next b) rest
                else .error (fault here "found an incorrect trailing UTF-8 octet")
            | _, _, _ => .error (fault here "did not find URI escaped octet")
        | _ => .error (fault here "did not find URI escaped octet")
      else if more ≠ 0 then .error (fault here "did not find URI escaped octet")
      else if isTagChar full c then
        tagBytes full fault 0 (UInt8.ofNat c.toNat :: latestFirst) (place.next c) rest
      else .ok (latestFirst.reverse, here)

/-- Read what a tag says, behind `before`; a byte that is zero ends it. -/
def readTagText (full inDirective : Bool) (before : List Char) (start : Place) (s : Source) :
    Except SyntaxFault (String × Source) := do
  let doing := if inDirective then "while parsing a %TAG directive" else "while parsing a tag"
  let (bytes, after) ← tagBytes full (fun s => s.fault doing start) 0 [] s.place s.rest
  if before.isEmpty && bytes.isEmpty then
    .error (after.fault doing start "did not find expected tag URI")
  else
    return (String.ofList before.tail ++ Text.decodeUtf8Lossy (bytes.takeWhile (· != 0)), after)

/-- Read a tag from its indicator on. -/
def readTag (inFlow : Bool) (start : Place) (s : Source) : Except SyntaxFault (TokenKind × Source) := do
  let (kind, s) ←
    if s.ahead? 1 = some '<' then do
      let (suffix, s) ← readTagText true false [] start s.skip.skip
      if s.head? ≠ some '>' then
        .error (s.fault "while scanning a tag" start "did not find the expected '>'")
      else pure (TokenKind.tag "" suffix, s.skip)
    else do
      let (handle, s) ← readHandle false start s
      if 2 ≤ handle.length && handle.toList.getLast? == some '!' then
        let (suffix, s) ← readTagText false false [] start s
        pure (TokenKind.tag handle suffix, s)
      else
        let (suffix, s) ← readTagText false false handle.toList start s
        pure (if suffix.isEmpty then TokenKind.tag "" "!" else TokenKind.tag "!" suffix, s)
  if startsBlank s.rest || (inFlow && s.head? = some ',') then pure (kind, s)
  else
    .error (s.fault "while scanning a tag" start
      "did not find expected whitespace or line break")

/-- Read one number of a version. -/
def readVersionNumber (start : Place) (s : Source) : Except SyntaxFault (Nat × Source) :=
  let (digits, after) := s.takeWhile Char.isDigit
  if 9 < digits.length then
    .error ((s.skipN 9).fault "while scanning a %YAML directive" start
      "found extremely long version number")
  else
    match Text.digits? 10 digits with
    | some n => .ok (n, after)
    | none =>
        .error (s.fault "while scanning a %YAML directive" start
          "did not find expected version number")

/-- Read the directive that says which version of the language is used. -/
def readVersion (start : Place) (s : Source) : Except SyntaxFault (TokenKind × Source) := do
  let (major, s) ← readVersionNumber start s.skipSpaces
  if s.head? ≠ some '.' then
    .error (s.fault "while scanning a %YAML directive" start
      "did not find expected digit or '.' character")
  else
    let (minor, s) ← readVersionNumber start s.skip
    return (.versionDirective major minor, s)

/-- Read the directive that says what a handle stands for. -/
def readTagDirective (start : Place) (s : Source) : Except SyntaxFault (TokenKind × Source) := do
  let (handle, s) ← readHandle true start s.skipSpaces
  if !s.head?.any isSpace then
    .error (s.fault "while scanning a %TAG directive" start "did not find expected whitespace")
  else
    let (expansion, s) ← readTagText true true [] start s.skipSpaces
    if startsBlank s.rest then return (.tagDirective handle expansion, s)
    else
      .error (s.fault "while scanning a %TAG directive" start
        "did not find expected whitespace or line break")

/-- Read a directive behind its indicator. -/
def readDirective (start : Place) (s : Source) : Except SyntaxFault (TokenKind × Source) := do
  let doing := "while scanning a directive"
  let (name, s) := s.takeWhile isWord
  if name.isEmpty then
    .error (s.fault doing start "could not find expected directive name")
  else if !startsBlank s.rest then
    .error (s.fault doing start "found unexpected non-alphabetical character")
  else
    let (kind, s) ←
      match String.ofList name with
      | "YAML" => readVersion start s
      | "TAG" => readTagDirective start s
      | _ => .error (s.fault doing start "found unknown directive name")
    let s := s.skipSpaces.skipComment
    if startsBreak s.rest then return (kind, s.skipBreak)
    else .error (s.fault doing start "did not find expected comment or line break")

end BackupRestore.Yaml
