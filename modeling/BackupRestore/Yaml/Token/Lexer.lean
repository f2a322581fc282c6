/-
Module: BackupRestore.Yaml.Token.Lexer
Purpose: Reading the tokens of a document, one after the other.
Main exports: Obstacle, Lexer, Lexer.ofText, Lexer.peek, Lexer.drop
-/
import BackupRestore.Yaml.Token

namespace BackupRestore.Yaml

/-!
Indentation and keys are tokens too, though nothing spells them.  A collection
that is written as a block begins where a line is set in further than the lines
around it, and ends where a line is set in less.  A key is noticed only at the
colon behind it; so a token that could be a key waits in the queue until a colon
has come or can no longer come.
-/

/-- A token that may turn out to be a key. -/
structure KeyCandidate where
  /-- The number of the token, counted from the beginning. -/
  number : Nat
  /-- How many flow collections are open around it. -/
  level : Nat
  /-- Nothing but a key can stand here. -/
  isRequired : Bool
  place : Place
deriving Repr, Inhabited, DecidableEq

/-- What keeps a text from being read beyond some of its characters. -/
structure Obstacle where
  fault : SyntaxFault
  /-- How many bytes lie before it. -/
  offset : Nat
deriving Repr, Inhabited, DecidableEq

/-- The state of reading tokens. -/
structure Lexer where
  source : Source
  /-- What lies at the end of the source, if it is not the end of the text. -/
  obstacle : Option Obstacle := none
  hasBegun : Bool := false
  hasEnded : Bool := false
  /-- Tokens that have been read and not taken. -/
  queue : List Token := []
  /-- How many tokens have been taken. -/
  taken : Nat := 0
  /-- The indentation of the innermost block, and of those around it. -/
  indent : Int := -1
  outerIndents : List Int := []
  /-- A key may stand here. -/
  keyAllowed : Bool := false
  /-- How many flow collections are open. -/
  flowLevel : Nat := 0
  /-- The tokens that may turn out to be keys, the innermost first; at most one for each
  level. -/
  candidates : List KeyCandidate := []
  /-- More tokens than the text can hold: every token but the two at its ends takes up
  a character. -/
  limit : Nat
deriving Repr, Inhabited

namespace Lexer

/-- A text before its first token. -/
def ofText (text : String) (obstacle : Option Obstacle := none) : Lexer :=
  { source := { rest := text.toList }, obstacle, limit := text.length + 3 }

/-- A flow collection is open. -/
def inFlow (l : Lexer) : Bool := 0 < l.flowLevel

/-- The place that has been reached. -/
def place (l : Lexer) : Place := l.source.place

/-- A fault at that place. -/
def fault (l : Lexer) (problem : String) : SyntaxFault := { problem, place := l.place }

/-- A fault of a key that has no colon. -/
def missingColon (l : Lexer) (c : KeyCandidate) : SyntaxFault :=
  l.source.fault "while scanning a simple key" c.place "could not find expected ':'"

/-- Put a token at the end of the queue. -/
def push (l : Lexer) (kind : TokenKind) (start stop : Place) : Lexer :=
  { l with queue := l.queue ++ [{ kind, start, stop }] }

/-- Put a token in front of the one with a number. -/
def pushBefore (l : Lexer) (number : Nat) (kind : TokenKind) (place : Place) : Lexer :=
  { l with queue := l.queue.insertIdx (number - l.taken) { kind, start := place, stop := place } }

/-- The most bytes between the beginning of a key and its colon. -/
def keyReach : Nat := 1024

/-- A candidate is out of reach: its line has ended, or it lies too far back. -/
def isStale (l : Lexer) (c : KeyCandidate) : Bool :=
  c.place.line < l.place.line || c.place.index + keyReach < l.place.index

/-- Give up the candidates that are out of reach. -/
def dropStale (l : Lexer) : Except SyntaxFault Lexer :=
  match l.candidates.find? fun c => c.isRequired && l.isStale c with
  | some c => .error (l.missingColon c)
  | none => .ok { l with candidates := l.candidates.filter (!l.isStale ·) }

/-- The candidate of the innermost collection, and the others. -/
def splitCandidates (l : Lexer) : Option KeyCandidate × List KeyCandidate :=
  match l.candidates with
  | c :: rest => if c.level = l.flowLevel then (some c, rest) else (none, l.candidates)
  | [] => (none, [])

/-- Give up the innermost candidate. -/
def dropCandidate (l : Lexer) : Except SyntaxFault Lexer :=
  match l.splitCandidates with
  | (some c, others) =>
      if c.isRequired then .error (l.missingColon c) else .ok { l with candidates := others }
  | (none, _) => .ok l

/-- The next token may be a key. -/
def saveCandidate (l : Lexer) : Except SyntaxFault Lexer :=
  if !l.keyAllowed then .ok l
  else do
    let l ← l.dropCandidate
    let candidate : KeyCandidate :=
      { number := l.taken + l.queue.length
        level := l.flowLevel
        isRequired := !l.inFlow && l.indent == (l.place.column : Int)
        place := l.place }
    return { l with candidates := candidate :: l.candidates }

/-- Begin a block at a column, unless one has begun there.  Its token goes in front
of the one with the number, or to the end of the queue. -/
def openBlock (l : Lexer) (column : Nat) (number : Option Nat) (kind : TokenKind)
    (place : Place) : Lexer :=
  if l.inFlow || (column : Int) ≤ l.indent then l
  else
    let l := { l with indent := column, outerIndents := l.indent :: l.outerIndents }
    match number with
    | none => l.push kind place place
    | some number => l.pushBefore number kind place

/-- End the blocks that are set in further than a column, among `indents`. -/
def endBlocks (column : Int) (place : Place) (queue : List Token) (indent : Int) :
    (outer : List Int) → List Token × Int × List Int
  | [] => (queue, indent, [])
  | next :: outer =>
      if column < indent then
        endBlocks column place (queue ++ [{ kind := .blockEnd, start := place, stop := place }])
          next outer
      else (queue, indent, next :: outer)

/-- End the blocks that are set in further than a column. -/
def closeBlocks (l : Lexer) (column : Int) : Lexer :=
  if l.inFlow then l
  else
    let (queue, indent, outerIndents) :=
      endBlocks column l.place l.queue l.indent l.outerIndents
    { l with queue, indent, outerIndents }

/-- The mark that shows a text's encoding; it may stand at the beginning of a line. -/
def orderMark : Char := '\uFEFF'

/-- Go over blanks, comments and the ends of lines.  Gives whether a key may stand
behind them. -/
def skipBlanks (inFlow : Bool) (inComment atLineStart keyAllowed : Bool) (place : Place) :
    List Char → Source × Bool
  | [] => ({ rest := [], place }, keyAllowed)
  | '\r' :: '\n' :: rest =>
      skipBlanks inFlow false true (keyAllowed || !inFlow) place.nextLinePair rest
  | c :: rest =>
      if isBreak c then skipBlanks inFlow false true (keyAllowed || !inFlow) (place.nextLine c) rest
      else if inComment || c == '#' then skipBlanks inFlow true false keyAllowed (place.next c) rest
      else if c == ' ' || ((inFlow || !keyAllowed) && c == '\t') || (atLineStart && c == orderMark)
      then skipBlanks inFlow false false keyAllowed (place.next c) rest
      else ({ rest := c :: rest, place }, keyAllowed)

/-- Go on to where the next token begins. -/
def skipToToken (l : Lexer) : Lexer :=
  let (source, keyAllowed) :=
    skipBlanks l.inFlow false (l.place.column == 0) l.keyAllowed l.place l.source.rest
  { l with source, keyAllowed }

/-- Take `width` characters as a token. -/
def mark (l : Lexer) (kind : TokenKind) (width : Nat) : Lexer :=
  let source := l.source.skipN width
  { l with source }.push kind l.place source.place

/-- Look at the next characters, as many as `width`: an obstacle among them is met. -/
def lookAhead (l : Lexer) (width : Nat) : Except SyntaxFault Lexer :=
  match l.obstacle with
  | none => .ok l
  | some o => if (l.source.rest.take width).length < width then .error o.fault else .ok l

/-- Take what has been read as a token.  The character behind it shows its end. -/
def take (l : Lexer) (reading : Except SyntaxFault (TokenKind × Source)) : Except SyntaxFault Lexer := do
  let (kind, source) ← reading
  return (← { l with source }.lookAhead 1).push kind l.place source.place

/-- Take a scalar that has been read as a token. -/
def takeScalar (l : Lexer) (style : ScalarStyle) (reading : Except SyntaxFault ScalarText) :
    Except SyntaxFault Lexer := do
  let text ← reading
  return (← { l with source := text.source }.lookAhead text.ahead).push (.scalar text.value style)
    l.place text.source.place

/-- The text begins. -/
def readStart (l : Lexer) : Lexer :=
  { l with hasBegun := true, keyAllowed := true }.push .streamStart l.place l.place

/-- The text ends. -/
def readEnd (l : Lexer) : Except SyntaxFault Lexer := do
  let place := l.place
  let place :=
    if place.column = 0 then place else { place with line := place.line + 1, column := 0 }
  let l := { l with source := { l.source with place } }
  let l ← (l.closeBlocks (-1)).dropCandidate
  return { l with keyAllowed := false, hasEnded := true }.push .streamEnd place place

/-- A directive begins. -/
def readDirectiveLine (l : Lexer) : Except SyntaxFault Lexer := do
  let l ← (l.closeBlocks (-1)).dropCandidate
  { l with keyAllowed := false }.take (readDirective l.place l.source.skip)

/-- A document begins or ends. -/
def readMarker (l : Lexer) (kind : TokenKind) : Except SyntaxFault Lexer := do
  let l ← (l.closeBlocks (-1)).dropCandidate
  return { l with keyAllowed := false }.mark kind 3

/-- A flow collection begins. -/
def openFlow (l : Lexer) (kind : TokenKind) : Except SyntaxFault Lexer := do
  let l ← l.saveCandidate
  return { l with flowLevel := l.flowLevel + 1, keyAllowed := true }.mark kind 1

/-- A flow collection ends. -/
def closeFlow (l : Lexer) (kind : TokenKind) : Except SyntaxFault Lexer := do
  let l ← l.dropCandidate
  return { l with flowLevel := l.flowLevel - 1, keyAllowed := false }.mark kind 1

/-- An entry of a flow collection ends. -/
def readFlowEntry (l : Lexer) : Except SyntaxFault Lexer := do
  let l ← l.dropCandidate
  return { l with keyAllowed := true }.mark .flowEntry 1

/-- An entry of a sequence begins. -/
def readBlockEntry (l : Lexer) : Except SyntaxFault Lexer := do
  if !l.inFlow && !l.keyAllowed then
    .error (l.fault "block sequence entries are not allowed in this context")
  else
    let l ← (l.openBlock l.place.column none .blockSequenceStart l.place).dropCandidate
    return { l with keyAllowed := true }.mark .blockEntry 1

/-- A key begins, marked as one. -/
def readKey (l : Lexer) : Except SyntaxFault Lexer := do
  if !l.inFlow && !l.keyAllowed then
    .error (l.fault "mapping keys are not allowed in this context")
  else
    let l ← (l.openBlock l.place.column none .blockMappingStart l.place).dropCandidate
    return { l with keyAllowed := !l.inFlow }.mark .key 1

/-- A value begins.  The candidate in front of it, if there is one, was a key. -/
def readValue (l : Lexer) : Except SyntaxFault Lexer :=
  match l.splitCandidates with
  | (some c, others) =>
      let l := { l with candidates := others }.pushBefore c.number .key c.place
      let l := l.openBlock c.place.column (some c.number) .blockMappingStart c.place
      .ok ({ l with keyAllowed := false }.mark .value 1)
  | (none, _) =>
      if !l.inFlow && !l.keyAllowed then
        .error (l.fault "mapping values are not allowed in this context")
      else
        let l := l.openBlock l.place.column none .blockMappingStart l.place
        .ok ({ l with keyAllowed := !l.inFlow }.mark .value 1)

/-- Something that may be a key begins. -/
def readNodePart (l : Lexer) (read : Source → Except SyntaxFault (TokenKind × Source)) : Except SyntaxFault Lexer := do
  let l ← l.saveCandidate
  { l with keyAllowed := false }.take (read l.source)

/-- A quoted scalar begins. -/
def readQuotedScalar (l : Lexer) (isSingle : Bool) : Except SyntaxFault Lexer := do
  let l ← l.saveCandidate
  { l with keyAllowed := false }.takeScalar
    (if isSingle then .singleQuoted else .doubleQuoted) (readQuoted isSingle l.source)

/-- A plain scalar begins.  If its last line has ended, a key may follow. -/
def readPlainScalar (l : Lexer) : Except SyntaxFault Lexer := do
  let l ← l.saveCandidate
  let text ← readPlain l.inFlow l.indent l.source
  { l with keyAllowed := text.endsBroken }.takeScalar .plain (.ok text)

/-- A scalar that is written as a block begins. -/
def readBlockScalar (l : Lexer) (style : ScalarStyle) : Except SyntaxFault Lexer := do
  let l ← l.dropCandidate
  { l with keyAllowed := true }.takeScalar style
    (readBlock (style == ScalarStyle.folded) l.indent l.source)

/-- The characters that have a meaning of their own at the beginning of a token. -/
def isIndicator (c : Char) : Bool :=
  ['-', '?', ':', ',', '[', ']', '{', '}', '#', '&', '*', '!', '|', '>', '\'', '"', '%', '@',
    '`'].contains c

/-- A plain scalar may begin with this character. -/
def startsPlain (l : Lexer) (c : Char) (rest : List Char) : Bool :=
  !(isSpace c || isBreak c || isIndicator c) ||
    (c == '-' && !rest.head?.any isSpace) ||
    (!l.inFlow && (c == '?' || c == ':') && !startsBlank rest)

/-- Read the token that begins with this character. -/
def readFrom (l : Lexer) (c : Char) (rest : List Char) : Except SyntaxFault Lexer :=
  let standsAlone := startsBlank rest
  if l.place.column == 0 && c == '%' then l.readDirectiveLine
  else if isMarker l.place '-' (c :: rest) then l.readMarker .documentStart
  else if isMarker l.place '.' (c :: rest) then l.readMarker .documentEnd
  else if c == '[' then l.openFlow .flowSequenceStart
  else if c == '\x7b' then l.openFlow .flowMappingStart
  else if c == ']' then l.closeFlow .flowSequenceEnd
  else if c == '\x7d' then l.closeFlow .flowMappingEnd
  else if c == ',' then l.readFlowEntry
  else if c == '-' && standsAlone then l.readBlockEntry
  else if c == '?' && (l.inFlow || standsAlone) then l.readKey
  else if c == ':' && (l.inFlow || standsAlone) then l.readValue
  else if c == '*' then l.readNodePart fun s => readAnchor true s.place s.skip
  else if c == '&' then l.readNodePart fun s => readAnchor false s.place s.skip
  else if c == '!' then l.readNodePart fun s => readTag l.inFlow s.place s
  else if c == '|' && !l.inFlow then l.readBlockScalar .literal
  else if c == '>' && !l.inFlow then l.readBlockScalar .folded
  else if c == '\'' then l.readQuotedScalar true
  else if c == '"' then l.readQuotedScalar false
  else if l.startsPlain c rest then l.readPlainScalar
  else
    .error (l.source.fault "while scanning for the next token" l.place
      "found character that cannot start any token")

/-- Which fault is met first: the obstacle, or one found while what lies before the
obstacle was read as if nothing followed. -/
def firstFault (l : Lexer) (fault : SyntaxFault) : SyntaxFault :=
  match l.obstacle with
  | none => fault
  | some o => if fault.place.index < o.offset then fault else o.fault

/-- Read one more token.  As many characters are looked at first as tell what it is. -/
def readNext (l : Lexer) : Except SyntaxFault Lexer :=
  if !l.hasBegun then return (← l.lookAhead 1).readStart
  else do
    let l ← (← l.skipToToken.lookAhead 1).dropStale
    let l := l.closeBlocks l.place.column
    let l ← l.lookAhead markerWidth
    match l.source.rest with
    | [] => l.readEnd
    | c :: rest => (l.readFrom c rest).mapError l.firstFault

/-- The first token of the queue is settled: no key can come in front of it. -/
def isSettled (l : Lexer) : Bool :=
  !l.queue.isEmpty && l.candidates.all (·.number != l.taken)

/-- Read tokens until the first one is settled, at most `fuel` of them. -/
def settle : (fuel : Nat) → Lexer → Except SyntaxFault Lexer
  | 0, l => .ok l
  | fuel + 1, l =>
      if l.hasEnded && l.queue.isEmpty then .ok l
      else do
        let l ← if l.queue.isEmpty then pure l else l.dropStale
        if l.isSettled then .ok l
        else settle fuel (← l.readNext)

/-- The next token. -/
def peek (l : Lexer) : Except SyntaxFault (Token × Lexer) := do
  let l ← settle l.limit l
  match l.queue with
  | token :: _ => return (token, l)
  | [] => return ({ kind := .streamEnd, start := l.place, stop := l.place }, l)

/-- The lexer behind the next token. -/
def drop (l : Lexer) : Lexer := { l with queue := l.queue.tail, taken := l.taken + 1 }

end Lexer

end BackupRestore.Yaml
