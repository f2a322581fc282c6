/-
Module: BackupRestore.Yaml.Document
Purpose: The document that a text holds, as far as it can be read.
Main exports: Part, Document, Document.ofText
-/
import BackupRestore.Yaml.Event

namespace BackupRestore.Yaml

/-- What a handle stands for where no directive says otherwise. -/
def defaultHandles : List (String × String) := [("!", "!"), ("!!", "tag:yaml.org,2002:")]

/-- An event of a document.  A reference is replaced by the beginning of the node
that it refers to. -/
structure Part where
  event : Event
  isReference : Bool := false
deriving Repr, Inhabited, DecidableEq

/-- What a text holds. -/
structure Document where
  /-- The parts of the first document, up to a fault.  A text without a document has
  none. -/
  parts : List Part := []
  /-- What keeps the rest of the document from being read. -/
  fault : Option SyntaxFault := none
  /-- Nothing follows the document. -/
  isOnly : Bool := true
deriving Repr, Inhabited, DecidableEq

/-- The events of a document in order, with the numbers of their anchors. -/
structure Gathered where
  /-- The events, the latest first; a reference comes with the number of the anchor
  it names. -/
  events : List (Event × Option Nat) := []
  /-- The number of each anchor's name. -/
  names : List (String × Nat) := []
  /-- The event to which a number leads. -/
  targets : List (Nat × Event) := []
deriving Repr, Inhabited

namespace Gathered

/-- Note the anchor of an event.  It is numbered by how many names were known before
it; a name or a number that is given again leads to the later event. -/
def note (g : Gathered) (event : Event) : Gathered :=
  match event.anchor with
  | none => g
  | some name =>
      let number := g.names.length
      { g with
        names := (name, number) :: g.names.filter (·.1 != name)
        targets := (number, event) :: g.targets }

/-- Add an event. -/
def add (g : Gathered) (event : Event) : Except SyntaxFault Gathered :=
  match event.kind with
  | .reference name =>
      match g.names.lookup name with
      | some number => .ok { g with events := (event, some number) :: g.events }
      | none => .error { problem := "unknown anchor", place := event.place }
  | _ =>
      let noted := g.note event
      .ok { noted with events := (event, none) :: noted.events }

/-- The parts of the document. -/
def parts (g : Gathered) : List Part :=
  g.events.reverse.map fun (event, number) =>
    match number.bind fun n => g.targets.lookup n with
    | some target => { event := target, isReference := true }
    | none => { event }

end Gathered

/-- Gather the events of the document, at most `fuel` of them. -/
def gather : (fuel : Nat) → EventReader → Gathered → Gathered × Except SyntaxFault EventReader
  | 0, r, g => (g, .ok r)
  | fuel + 1, r, g =>
      match r.next with
      | .error fault => (g, .error fault)
      | .ok (none, r) => (g, .ok r)
      | .ok (some event, r) =>
          match g.add event with
          | .error fault => (g, .error fault)
          | .ok g => gather fuel r g

/-- What directives have said. -/
structure Directives where
  hasVersion : Bool := false
  handles : List (String × String) := []
deriving Repr, Inhabited

/-- Read directives, at most `fuel` of them, up to the token behind them. -/
def readDirectives : (fuel : Nat) → Directives → EventReader →
    Except SyntaxFault (Directives × Token × EventReader)
  | 0, d, r => do
      let (token, r) ← r.peek
      return (d, token, r)
  | fuel + 1, d, r => do
      let (token, r) ← r.peek
      let fault (problem : String) : SyntaxFault := { problem, place := token.start }
      match token.kind with
      | .versionDirective major minor =>
          if d.hasVersion then .error (fault "found duplicate %YAML directive")
          else if major ≠ 1 ∨ (minor ≠ 1 ∧ minor ≠ 2) then
            .error (fault "found incompatible YAML document")
          else readDirectives fuel { d with hasVersion := true } r.drop
      | .tagDirective handle expansion =>
          if (d.handles.lookup handle).isSome then
            .error (fault "found duplicate %TAG directive")
          else
            readDirectives fuel { d with handles := d.handles ++ [(handle, expansion)] } r.drop
      | _ => return (d, token, r)

/-- Begin to read the first document; none if the text holds none. -/
def beginDocument (fuel : Nat) (r : EventReader) : Except SyntaxFault (Option EventReader) := do
  let (_, r) ← r.peek
  let (token, r) ← r.drop.peek
  match token.kind with
  | .streamEnd => return none
  | .versionDirective .. | .tagDirective .. | .documentStart =>
      let (directives, token, r) ← readDirectives fuel {} r
      if token.kind = .documentStart then
        return some { r.drop with
          stack := [.content, .documentEnd]
          handles := directives.handles ++ defaultHandles }
      else
        .error { problem := "did not find expected <document start>", place := token.start }
  | _ => return some { r with stack := [.node true false, .documentEnd], handles := defaultHandles }

/-- Nothing but marks of a document's end is left; at most `fuel` of them are
looked at. -/
def endsHere : (fuel : Nat) → Lexer → Bool
  | 0, _ => false
  | fuel + 1, l =>
      match l.peek with
      | .error _ => false
      | .ok (token, l) =>
          match token.kind with
          | .streamEnd => true
          | .documentEnd => endsHere fuel l.drop
          | _ => false

/-- The most bytes of a text that are taken up at once. -/
def pieceSize : Nat := 16384

/-- Look for the first character that may not stand in a text.  Of the characters before
the rest there are `seen`, with `offset` bytes; the piece under way begins behind `kept`
of them and ends before `limit` bytes are exceeded. -/
def findForbidden? (seen offset kept limit : Nat) : List Char → Option (Nat × Nat)
  | [] => none
  | c :: rest =>
      let next := offset + c.utf8Size
      let (kept, limit) := if limit < next then (seen, offset + pieceSize) else (kept, limit)
      if isAllowed c then findForbidden? (seen + 1) next kept limit rest else some (kept, offset)

namespace Document

/-- The document that a reader finds. -/
def read (fuel : Nat) (r : EventReader) : Document :=
  match beginDocument fuel r with
  | .error fault => { fault := some fault }
  | .ok none => {}
  | .ok (some r) =>
      match gather fuel r {} with
      | (g, .error fault) => { parts := g.parts, fault := some fault }
      | (g, .ok r) => { parts := g.parts, isOnly := endsHere fuel r.lexer }

/-- The document that a text holds.  A text is taken up in pieces of whole characters,
and a character that may not stand in it is noticed when its piece is taken up: the pieces
before are read, and the rest of the text is not.  Every event takes up a token or ends
what another has begun, and every token takes up a character or marks where one begins; so
the length of the text bounds how many there are. -/
def ofText (text : String) : Document :=
  let chars := text.toList
  let fuel := 32 * (chars.length + 4)
  match findForbidden? 0 0 0 pieceSize chars with
  | none => read fuel (.ofText text)
  | some (kept, offset) =>
      let before := String.ofList (chars.take kept)
      let fault : SyntaxFault := { problem := "control characters are not allowed", offset }
      read fuel (.ofText before (some { fault, offset := before.utf8ByteSize }))

end Document

end BackupRestore.Yaml
