/-
Module: BackupRestore.Yaml.Scalar
Purpose: Reading scalars: plain, quoted, and written as blocks of lines.
Main exports: ScalarStyle, readPlain, readQuoted, readBlock
-/
import BackupRestore.Text.Number
import BackupRestore.Yaml.Place

namespace BackupRestore.Yaml

/-- How a scalar is written. -/
inductive ScalarStyle where
  | plain
  | singleQuoted
  | doubleQuoted
  | literal
  | folded
deriving Repr, Inhabited, DecidableEq

/-!
In plain and quoted scalars, blanks at the end of a line are dropped.  A single
line break becomes a space; of several, the first is dropped and the others are
kept.
-/

/-- The blanks between two words of a scalar. -/
structure Gap where
  /-- Blanks on the line of the first word, the latest first. -/
  spaces : List Char := []
  /-- A line has ended. -/
  broken : Bool := false
  /-- The first line break, unless it was escaped. -/
  firstBreak : Option Char := none
  /-- The line breaks after it, the latest first. -/
  otherBreaks : List Char := []
deriving Repr, Inhabited, DecidableEq

namespace Gap

/-- Add a space or a tab. -/
def addSpace (g : Gap) (c : Char) : Gap :=
  if g.broken then g else { g with spaces := c :: g.spaces }

/-- Add a line break. -/
def addBreak (g : Gap) (c : Char) : Gap :=
  if g.broken then { g with otherBreaks := breakValue c :: g.otherBreaks }
  else { broken := true, firstBreak := some (breakValue c) }

/-- The gap behind an escaped line break. -/
def escaped : Gap := { broken := true }

/-- What the gap contributes to the value, put in front of what comes before. -/
def close (g : Gap) (before : List Char) : List Char :=
  if g.broken then
    match g.firstBreak with
    | none => g.otherBreaks ++ before
    | some c =>
        if c == '\n' then
          if g.otherBreaks.isEmpty then ' ' :: before else g.otherBreaks ++ before
        else g.otherBreaks ++ c :: before
  else g.spaces ++ before

end Gap

/-- A scalar that has been read. -/
structure ScalarText where
  value : String
  source : Source
  /-- A line has ended since its last word. -/
  endsBroken : Bool := false
  /-- How many characters of `source` were looked at to find its end. -/
  ahead : Nat := 1
deriving Repr, Inhabited, DecidableEq

/-- The value of characters that were gathered latest first. -/
def gathered (latestFirst : List Char) : String := String.ofList latestFirst.reverse

/-- A colon, or in a flow collection another indicator, ends a plain scalar. -/
def endsPlain (inFlow : Bool) (c : Char) (rest : List Char) : Bool :=
  (c == ':' && startsBlank rest) ||
    (inFlow && (c == ',' || c == '[' || c == ']' || c == '{' || c == '}'))

/-- A colon in a flow collection that is neither part of a word nor a separator. -/
def isStrayColon (inFlow : Bool) (c : Char) (rest : List Char) : Bool :=
  inFlow && c == ':' &&
    match rest with
    | d :: _ => d == ',' || d == '?' || d == '[' || d == ']' || d == '{' || d == '}'
    | [] => false

/-- What is known while a plain scalar is read. -/
structure PlainContext where
  inFlow : Bool
  /-- Further lines begin at this column or behind it. -/
  indent : Int
  start : Place

/-- A plain scalar that ends in front of `source`, where `ahead` characters have been
looked at. -/
def plainText (gap : Gap) (latestFirst : List Char) (source : Source) (ahead : Nat) : ScalarText :=
  { value := gathered latestFirst, source, endsBroken := gap.broken, ahead }

/-- Read a plain scalar.  `inWord` tells that the last character belonged to a
word. -/
def plainFrom (ctx : PlainContext) (inWord : Bool) (gap : Gap) (value : List Char) (place : Place) :
    List Char → Except SyntaxFault ScalarText
  | [] =>
      .ok (plainText gap value { rest := [], place } 1)
  | '\r' :: '\n' :: rest =>
      plainFrom ctx false (gap.addBreak '\n') value place.nextLinePair rest
  | c :: rest =>
      if isSpace c then
        if gap.broken && (place.column : Int) < ctx.indent && c == '\t' then
          .error { problem := "found a tab character that violates indentation", place
                   context := some ("while scanning a plain scalar", ctx.start) }
        else plainFrom ctx false (gap.addSpace c) value (place.next c) rest
      else if isBreak c then
        plainFrom ctx false (gap.addBreak c) value (place.nextLine c) rest
      else if !inWord && !ctx.inFlow && (place.column : Int) < ctx.indent then
        .ok (plainText gap value { rest := c :: rest, place } 1)
      else if !inWord && (isDocumentMarker place (c :: rest) || c == '#') then
        .ok (plainText gap value { rest := c :: rest, place } markerWidth)
      else if isStrayColon ctx.inFlow c rest then
        .error { problem := "found unexpected ':'", place
                 context := some ("while scanning a plain scalar", ctx.start) }
      else if endsPlain ctx.inFlow c rest then
        .ok (plainText gap value { rest := c :: rest, place } (if inWord then 2 else markerWidth))
      else plainFrom ctx true {} (c :: gap.close value) (place.next c) rest

/-- Read a plain scalar from its first character on; `indent` is the indentation
of the collection around it. -/
def readPlain (inFlow : Bool) (indent : Int) (s : Source) : Except SyntaxFault ScalarText :=
  plainFrom { inFlow, indent := indent + 1, start := s.place } true {} [] s.place s.rest

/-- The character that a letter stands for behind a backslash. -/
def escapeValue? : Char → Option Char
  | '0' => some '\x00'
  | 'a' => some '\x07'
  | 'b' => some '\x08'
  | 't' => some '\t'
  | '\t' => some '\t'
  | 'n' => some '\n'
  | 'v' => some '\x0B'
  | 'f' => some '\x0C'
  | 'r' => some '\r'
  | 'e' => some '\x1B'
  | ' ' => some ' '
  | '"' => some '"'
  | '/' => some '/'
  | '\\' => some '\\'
  | 'N' => some '\u0085'
  | '_' => some '\u00A0'
  | 'L' => some '\u2028'
  | 'P' => some '\u2029'
  | _ => none

/-- How many hexadecimal digits follow a letter behind a backslash. -/
def escapeDigits? : Char → Option Nat
  | 'x' => some 2
  | 'u' => some 4
  | 'U' => some 8
  | _ => none

/-- What the next characters of a quoted scalar belong to. -/
inductive QuotedState where
  | text
  /-- A number in hexadecimal: the digits to come, beyond one, and its value so
  far; the place where the number begins. -/
  | digits (more value : Nat) (since : Place)
deriving Repr, Inhabited, DecidableEq

/-- Read a quoted scalar behind its first quote. -/
def quotedFrom (isSingle : Bool) (start : Place) (state : QuotedState) (gap : Gap)
    (value : List Char) (place : Place) : List Char → Except SyntaxFault ScalarText
  | [] =>
      match state with
      | .text =>
          .error { problem := "found unexpected end of stream", place
                   context := some ("while scanning a quoted scalar", start) }
      | .digits _ _ since =>
          .error { problem := "did not find expected hexadecimal number", place := since
                   context := some ("while parsing a quoted scalar", start) }
  | c :: rest =>
      let fault (doing problem : String) (place : Place) : Except SyntaxFault ScalarText :=
        .error { problem, place, context := some (doing, start) }
      match state with
      | .digits more number since =>
          match Text.digitValue? 16 c with
          | none =>
              fault "while parsing a quoted scalar" "did not find expected hexadecimal number" since
          | some digit =>
              let number := number * 16 + digit
              match more with
              | more + 1 =>
                  quotedFrom isSingle start (.digits more number since) gap value (place.next c) rest
              | 0 =>
                  if number.isValidChar then
                    quotedFrom isSingle start .text {} (Char.ofNat number :: value) (place.next c) rest
                  else
                    fault "while parsing a quoted scalar"
                      "found invalid Unicode character escape code" since
      | .text =>
          if isDocumentMarker place (c :: rest) then
            fault "while scanning a quoted scalar" "found unexpected document indicator" place
          else if isSpace c then
            quotedFrom isSingle start .text (gap.addSpace c) value (place.next c) rest
          else if isBreak c then
            match c, rest with
            | '\r', '\n' :: rest =>
                quotedFrom isSingle start .text (gap.addBreak '\n') value place.nextLinePair rest
            | c, rest =>
                quotedFrom isSingle start .text (gap.addBreak c) value (place.nextLine c) rest
          else
            let value := gap.close value
            if isSingle then
              match c, rest with
              | '\'', '\'' :: rest =>
                  quotedFrom isSingle start .text {} ('\'' :: value) ((place.next c).next c) rest
              | '\'', rest =>
                  .ok { value := gathered value, source := { rest, place := place.next c }
                        ahead := if gap == {} then 1 else markerWidth - 1 }
              | c, rest => quotedFrom isSingle start .text {} (c :: value) (place.next c) rest
            else
              match c, rest with
              | '"', rest =>
                  .ok { value := gathered value, source := { rest, place := place.next c }
                        ahead := if gap == {} then 1 else markerWidth - 1 }
              | '\\', [] =>
                  fault "while parsing a quoted scalar" "found unknown escape character" place
              | '\\', '\r' :: '\n' :: rest =>
                  quotedFrom isSingle start .text .escaped value (place.next c).nextLinePair rest
              | '\\', d :: rest =>
                  if isBreak d then
                    quotedFrom isSingle start .text .escaped value ((place.next c).nextLine d) rest
                  else
                    match escapeValue? d, escapeDigits? d with
                    | some e, _ =>
                        quotedFrom isSingle start .text {} (e :: value) ((place.next c).next d) rest
                    | none, some (more + 1) =>
                        let since := (place.next c).next d
                        quotedFrom isSingle start (.digits more 0 since) {} value since rest
                    | none, _ =>
                        fault "while parsing a quoted scalar" "found unknown escape character" place
              | c, rest => quotedFrom isSingle start .text {} (c :: value) (place.next c) rest

/-- Read a quoted scalar from its first quote on. -/
def readQuoted (isSingle : Bool) (s : Source) : Except SyntaxFault ScalarText :=
  quotedFrom isSingle s.place .text {} [] s.skip.place s.skip.rest

/-- What becomes of the line breaks at the end of a block. -/
inductive Chomping where
  /-- All are dropped. -/
  | strip
  /-- One is kept. -/
  | clip
  /-- All are kept. -/
  | keep
deriving Repr, Inhabited, DecidableEq

/-- What has been read of a block. -/
structure BlockText where
  /-- The column at which its lines begin, once it is known. -/
  indent : Option Nat
  /-- The furthest column that the blank lines in front of it have reached. -/
  furthest : Nat := 0
  /-- Characters are added to a line. -/
  inLine : Bool := false
  /-- The value, the latest character first. -/
  value : List Char := []
  /-- The line break behind the last line. -/
  lineBreak : Option Char := none
  /-- The line breaks after it, the latest first. -/
  otherBreaks : List Char := []
  /-- The last line began with a blank. -/
  blankStart : Bool := false
deriving Repr, Inhabited, DecidableEq

namespace BlockText

/-- Begin a line with a character.  In a folded block the break between two lines
becomes a space, unless one of them begins with a blank. -/
def beginLine (b : BlockText) (isFolded : Bool) (c : Char) : BlockText :=
  let joined :=
    if isFolded && b.lineBreak == some '\n' && !b.blankStart && !isSpace c then
      if b.otherBreaks.isEmpty then ' ' :: b.value else b.otherBreaks ++ b.value
    else b.otherBreaks ++ b.lineBreak.toList ++ b.value
  { b with
    inLine := true
    value := c :: joined
    lineBreak := none
    otherBreaks := []
    blankStart := isSpace c }

/-- End a line. -/
def endLine (b : BlockText) (c : Char) : BlockText :=
  { b with inLine := false, lineBreak := some (breakValue c) }

/-- The value, with the line breaks at its end as `chomping` says. -/
def finish (b : BlockText) (chomping : Chomping) : String :=
  let tail :=
    match chomping with
    | .strip => []
    | .clip => b.lineBreak.toList
    | .keep => b.otherBreaks ++ b.lineBreak.toList
  gathered (tail ++ b.value)

end BlockText

/-- What is known while a block is read. -/
structure BlockContext where
  isFolded : Bool
  chomping : Chomping
  /-- The least column at which its lines may begin. -/
  least : Nat
  start : Place

/-- Read the lines of a block. -/
def blockFrom (ctx : BlockContext) (b : BlockText) (place : Place) :
    List Char → Except SyntaxFault ScalarText
  | [] => .ok { value := b.finish ctx.chomping, source := { rest := [], place } }
  | '\r' :: '\n' :: rest =>
      let b :=
        if b.inLine then b.endLine '\n'
        else
          { b with
            furthest := max b.furthest place.column
            otherBreaks := '\n' :: b.otherBreaks }
      blockFrom ctx b place.nextLinePair rest
  | c :: rest =>
      if b.inLine then
        if isBreak c then blockFrom ctx (b.endLine c) (place.nextLine c) rest
        else blockFrom ctx { b with value := c :: b.value } (place.next c) rest
      else
        let isMargin := b.indent.all (place.column < ·)
        if isMargin && c == ' ' then blockFrom ctx b (place.next c) rest
        else
          let b := { b with furthest := max b.furthest place.column }
          if isMargin && c == '\t' then
            .error { problem := "found a tab character where an indentation space is expected"
                     place, context := some ("while scanning a block scalar", ctx.start) }
          else if isBreak c then
            blockFrom ctx { b with otherBreaks := breakValue c :: b.otherBreaks }
              (place.nextLine c) rest
          else
            let indent := b.indent.getD (max b.furthest ctx.least)
            if place.column = indent then
              blockFrom ctx ({ b with indent := some indent }.beginLine ctx.isFolded c) (place.next c)
                rest
            else .ok { value := b.finish ctx.chomping, source := { rest := c :: rest, place } }

/-- What stands behind the indicator of a block: how it ends, and how far its lines
are set in beyond the collection around it. -/
structure BlockHeader where
  chomping : Chomping := .clip
  increment : Option Nat := none
  source : Source
deriving Repr, Inhabited, DecidableEq

/-- Read the indicators of a block. -/
def readBlockHeader (start : Place) (s : Source) : Except SyntaxFault BlockHeader := do
  let chompingOf (c : Char) : Option Chomping :=
    if c == '+' then some .keep else if c == '-' then some .strip else none
  let digit (s : Source) : Except SyntaxFault (Option Nat × Source) :=
    match s.head? with
    | some c =>
        if c == '0' then
          .error (s.fault "while scanning a block scalar" start
            "found an indentation indicator equal to 0")
        else if c.isDigit then .ok (some (c.toNat - '0'.toNat), s.skip)
        else .ok (none, s)
    | none => .ok (none, s)
  match s.head?.bind chompingOf with
  | some chomping =>
      let (increment, source) ← digit s.skip
      return { chomping, increment, source }
  | none =>
      let (increment, source) ← digit s
      match increment, source.head?.bind chompingOf with
      | some _, some chomping => return { chomping, increment, source := source.skip }
      | _, _ => return { increment, source }

/-- Read a block from its indicator on; `indent` is the indentation of the
collection around it. -/
def readBlock (isFolded : Bool) (indent : Int) (s : Source) : Except SyntaxFault ScalarText := do
  let header ← readBlockHeader s.place s.skip
  let source := header.source.skipSpaces.skipComment
  if !startsBreak source.rest then
    .error (source.fault "while scanning a block scalar" s.place
      "did not find expected comment or line break")
  else
    let source := source.skipBreak
    let ctx : BlockContext :=
      { isFolded, chomping := header.chomping, least := max 1 (indent + 1).toNat, start := s.place }
    blockFrom ctx { indent := header.increment.map (· + indent.toNat) } source.place source.rest

end BackupRestore.Yaml
