/-
Module: BackupRestore.Yaml.Event
Purpose: The structure of a document: what begins and what ends, read from its tokens.
Main exports: EventKind, Event, EventReader, EventReader.ofText, EventReader.next
-/
import BackupRestore.Yaml.Token.Lexer

namespace BackupRestore.Yaml

/-!
A document is one node: a scalar, a reference to a node that stands before it, or
a collection of nodes.  Its events tell where each node begins and where each
collection ends.

The reader keeps a stack of what it expects.  The beginning of a collection puts
the collection's next entry on the stack; a scalar and the end of a collection
leave what is below them to come next.
-/

/-- What happens at a place of a document. -/
inductive EventKind where
  /-- A reference to the node with an anchor. -/
  | reference (anchor : String)
  | scalar (text : String) (style : ScalarStyle)
  | sequenceStart
  | sequenceEnd
  | mappingStart
  | mappingEnd
deriving Repr, Inhabited, DecidableEq

/-- What happens at a place of a document, and what is said about the node that
begins there. -/
structure Event where
  kind : EventKind
  place : Place
  anchor : Option String := none
  tag : Option String := none
deriving Repr, Inhabited, DecidableEq

/-- The node of which nothing is written. -/
def Event.absent (place : Place) : Event := { kind := .scalar "" .plain, place }

/-- What is expected next.  `since` is the place where the collection begins. -/
inductive Expected where
  /-- The node of a document whose beginning is marked, or nothing. -/
  | content
  /-- A node; `isBlock` allows blocks, and `mayBeBare` allows a sequence that is
  not set in further than the mapping around it. -/
  | node (isBlock mayBeBare : Bool)
  | documentEnd
  | blockEntry (since : Place)
  | bareEntry
  | blockKey (since : Place)
  | blockValue (since : Place)
  | flowEntry (isFirst : Bool) (since : Place)
  /-- The parts of a mapping with one entry that stands in a flow sequence. -/
  | pairKey
  | pairValue
  | pairEnd
  | flowKey (isFirst : Bool) (since : Place)
  /-- The value of an entry; `isAbsent` tells that the entry is a key alone. -/
  | flowValue (isAbsent : Bool) (since : Place)
deriving Repr, Inhabited, DecidableEq

/-- The state of reading events. -/
structure EventReader where
  lexer : Lexer
  /-- What is expected, the next first. -/
  stack : List Expected := []
  /-- What the handles of tags stand for. -/
  handles : List (String × String) := []
deriving Repr, Inhabited

namespace EventReader

/-- An event, and the reader behind it. -/
abbrev Step : Type := Except SyntaxFault (Event × EventReader)

/-- A text before its first token. -/
def ofText (text : String) (obstacle : Option Obstacle := none) : EventReader :=
  { lexer := .ofText text obstacle }

/-- The next token. -/
def peek (r : EventReader) : Except SyntaxFault (Token × EventReader) := do
  let (token, lexer) ← r.lexer.peek
  return (token, { r with lexer })

/-- The reader behind the next token. -/
def drop (r : EventReader) : EventReader := { r with lexer := r.lexer.drop }

/-- The reader that expects something else first. -/
def expect (r : EventReader) (expected : Expected) : EventReader :=
  { r with stack := expected :: r.stack }

/-- A fault at a token. -/
def fault (token : Token) (doing : String) (since : Place) (problem : String) : SyntaxFault :=
  { problem, place := token.start, context := some (doing, since) }

/-- What may be said in front of a node. -/
structure Properties where
  anchor : Option String := none
  /-- A tag's handle and the text behind it. -/
  tag : Option (String × String) := none
  /-- The place of the tag. -/
  tagPlace : Place := {}
deriving Repr, Inhabited

/-- Read an anchor and a tag, in either order. -/
def readProperties (token : Token) (r : EventReader) :
    Except SyntaxFault (Properties × Token × EventReader) := do
  match token.kind with
  | .anchor name =>
      let (second, r) ← r.drop.peek
      match second.kind with
      | .tag handle suffix =>
          let (third, r) ← r.drop.peek
          return ({ anchor := some name, tag := some (handle, suffix), tagPlace := second.start },
            third, r)
      | _ => return ({ anchor := some name }, second, r)
  | .tag handle suffix =>
      let properties : Properties := { tag := some (handle, suffix), tagPlace := token.start }
      let (second, r) ← r.drop.peek
      match second.kind with
      | .anchor name =>
          let (third, r) ← r.drop.peek
          return ({ properties with anchor := some name }, third, r)
      | _ => return (properties, second, r)
  | _ => return ({}, token, r)

/-- The whole tag: what its handle stands for, and the text behind it. -/
def resolveTag (r : EventReader) (start : Place) (p : Properties) :
    Except SyntaxFault (Option String) :=
  match p.tag with
  | none => .ok none
  | some (handle, suffix) =>
      if handle.isEmpty then .ok (some suffix)
      else
        match r.handles.lookup handle with
        | some expansion => .ok (some (expansion ++ suffix))
        | none =>
            .error { problem := "found undefined tag handle", place := p.tagPlace
                     context := some ("while parsing a node", start) }

/-- Read a node, or the beginning of one that is a collection. -/
def readNode (isBlock mayBeBare : Bool) (r : EventReader) : Step := do
  let (first, r) ← r.peek
  let start := first.start
  match first.kind with
  | .reference name => return ({ kind := .reference name, place := start }, r.drop)
  | _ =>
      let (properties, token, r) ← r.readProperties first
      let tag ← r.resolveTag start properties
      let anchor := properties.anchor
      let begins (kind : EventKind) : Event := { kind, place := start, anchor, tag }
      match token.kind, isBlock, mayBeBare with
      | .blockEntry, _, true => return (begins .sequenceStart, r.expect .bareEntry)
      | .scalar text style, _, _ => return (begins (.scalar text style), r.drop)
      | .flowSequenceStart, _, _ =>
          return (begins .sequenceStart, r.drop.expect (.flowEntry true token.start))
      | .flowMappingStart, _, _ =>
          return (begins .mappingStart, r.drop.expect (.flowKey true token.start))
      | .blockSequenceStart, true, _ =>
          return (begins .sequenceStart, r.drop.expect (.blockEntry token.start))
      | .blockMappingStart, true, _ =>
          return (begins .mappingStart, r.drop.expect (.blockKey token.start))
      | _, _, _ =>
          if anchor.isSome || tag.isSome then return ({ Event.absent start with anchor, tag }, r)
          else
            .error (fault token
              (if isBlock then "while parsing a block node" else "while parsing a flow node") start
              "did not find expected node content")

/-- Read the node of a document whose beginning is marked. -/
def readContent (r : EventReader) : Step := do
  let (token, r) ← r.peek
  match token.kind with
  | .versionDirective .. | .tagDirective .. | .documentStart | .documentEnd | .streamEnd =>
      return (.absent token.start, r)
  | _ => r.readNode true false

/-- Read an entry of a block sequence, or its end. -/
def readBlockEntry (since : Place) (r : EventReader) : Step := do
  let (token, r) ← r.peek
  match token.kind with
  | .blockEntry =>
      let (next, r) ← r.drop.peek
      let r := r.expect (.blockEntry since)
      match next.kind with
      | .blockEntry | .blockEnd => return (.absent token.stop, r)
      | _ => r.readNode true false
  | .blockEnd => return ({ kind := .sequenceEnd, place := token.start }, r.drop)
  | _ =>
      .error (fault token "while parsing a block collection" since
        "did not find expected '-' indicator")

/-- Read an entry of a sequence that is not set in, or its end. -/
def readBareEntry (r : EventReader) : Step := do
  let (token, r) ← r.peek
  match token.kind with
  | .blockEntry =>
      let (next, r) ← r.drop.peek
      let r := r.expect .bareEntry
      match next.kind with
      | .blockEntry | .key | .value | .blockEnd => return (.absent token.stop, r)
      | _ => r.readNode true false
  | _ => return ({ kind := .sequenceEnd, place := token.start }, r)

/-- Read a key of a block mapping, or the mapping's end. -/
def readBlockKey (since : Place) (r : EventReader) : Step := do
  let (token, r) ← r.peek
  match token.kind with
  | .key =>
      let (next, r) ← r.drop.peek
      let r := r.expect (.blockValue since)
      match next.kind with
      | .key | .value | .blockEnd => return (.absent token.stop, r)
      | _ => r.readNode true true
  | .blockEnd => return ({ kind := .mappingEnd, place := token.start }, r.drop)
  | _ =>
      .error (fault token "while parsing a block mapping" since "did not find expected key")

/-- Read a value of a block mapping. -/
def readBlockValue (since : Place) (r : EventReader) : Step := do
  let (token, r) ← r.peek
  match token.kind with
  | .value =>
      let (next, r) ← r.drop.peek
      let r := r.expect (.blockKey since)
      match next.kind with
      | .key | .value | .blockEnd => return (.absent token.stop, r)
      | _ => r.readNode true true
  | _ => return (.absent token.start, r.expect (.blockKey since))

/-- Go on to the next entry of a flow collection: behind the first one a comma
is needed. -/
def readSeparator (isFirst : Bool) (isEnd : TokenKind → Bool) (doing problem : String)
    (since : Place) (r : EventReader) : Except SyntaxFault (Token × EventReader) := do
  let (token, r) ← r.peek
  if isFirst || isEnd token.kind then return (token, r)
  else if token.kind = .flowEntry then r.drop.peek
  else .error (fault token doing since problem)

/-- Read an entry of a flow sequence, or its end. -/
def readFlowEntry (isFirst : Bool) (since : Place) (r : EventReader) : Step := do
  let (token, r) ← r.readSeparator isFirst (· == .flowSequenceEnd) "while parsing a flow sequence"
    "did not find expected ',' or ']'" since
  match token.kind with
  | .flowSequenceEnd => return ({ kind := .sequenceEnd, place := token.start }, r.drop)
  | .key =>
      return ({ kind := .mappingStart, place := token.start },
        (r.drop.expect (.flowEntry false since)).expect .pairKey)
  | _ => (r.expect (.flowEntry false since)).readNode false false

/-- Read the key of a mapping with one entry.  Where nothing is written, the token
that shows it is passed over. -/
def readPairKey (r : EventReader) : Step := do
  let (token, r) ← r.peek
  let r := r.expect .pairValue
  match token.kind with
  | .value | .flowEntry | .flowSequenceEnd => return (.absent token.stop, r.drop)
  | _ => r.readNode false false

/-- Read the value of a mapping with one entry. -/
def readPairValue (r : EventReader) : Step := do
  let (token, r) ← r.peek
  let r := r.expect .pairEnd
  match token.kind with
  | .value =>
      let (next, r) ← r.drop.peek
      match next.kind with
      | .flowEntry | .flowSequenceEnd => return (.absent next.start, r)
      | _ => r.readNode false false
  | _ => return (.absent token.start, r)

/-- Read the end of a mapping with one entry. -/
def readPairEnd (r : EventReader) : Step := do
  let (token, r) ← r.peek
  return ({ kind := .mappingEnd, place := token.start }, r)

/-- Read a key of a flow mapping, or the mapping's end. -/
def readFlowKey (isFirst : Bool) (since : Place) (r : EventReader) : Step := do
  let (token, r) ← r.readSeparator isFirst (· == .flowMappingEnd) "while parsing a flow mapping"
    "did not find expected ',' or '\x7d'" since
  match token.kind with
  | .flowMappingEnd => return ({ kind := .mappingEnd, place := token.start }, r.drop)
  | .key =>
      let (next, r) ← r.drop.peek
      let r := r.expect (.flowValue false since)
      match next.kind with
      | .value | .flowEntry | .flowMappingEnd => return (.absent next.start, r)
      | _ => r.readNode false false
  | _ => (r.expect (.flowValue true since)).readNode false false

/-- Read a value of a flow mapping. -/
def readFlowValue (isAbsent : Bool) (since : Place) (r : EventReader) : Step := do
  let (token, r) ← r.peek
  let r := r.expect (.flowKey false since)
  match token.kind, isAbsent with
  | .value, false =>
      let (next, r) ← r.drop.peek
      match next.kind with
      | .flowEntry | .flowMappingEnd => return (.absent next.start, r)
      | _ => r.readNode false false
  | _, _ => return (.absent token.start, r)

/-- The next event of the document; none when the document has ended. -/
def next (r : EventReader) : Except SyntaxFault (Option Event × EventReader) :=
  match r.stack with
  | [] => .ok (none, r)
  | expected :: stack =>
      let r := { r with stack }
      let step (s : Step) : Except SyntaxFault (Option Event × EventReader) :=
        s.map fun (event, r) => (some event, r)
      match expected with
      | .documentEnd => do
          let (token, r) ← r.peek
          return (none, if token.kind = .documentEnd then r.drop else r)
      | .content => step r.readContent
      | .node isBlock mayBeBare => step (r.readNode isBlock mayBeBare)
      | .blockEntry since => step (r.readBlockEntry since)
      | .bareEntry => step r.readBareEntry
      | .blockKey since => step (r.readBlockKey since)
      | .blockValue since => step (r.readBlockValue since)
      | .flowEntry isFirst since => step (r.readFlowEntry isFirst since)
      | .pairKey => step r.readPairKey
      | .pairValue => step r.readPairValue
      | .pairEnd => step r.readPairEnd
      | .flowKey isFirst since => step (r.readFlowKey isFirst since)
      | .flowValue isAbsent since => step (r.readFlowValue isAbsent since)

end EventReader

end BackupRestore.Yaml
