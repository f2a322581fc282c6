/-
Module: BackupRestore.Settings.Document
Purpose: Changes to settings that are written as a document.
Main exports: Field, DocumentFault, DocumentFault.message, Overrides.ofDocument, Overrides.ofYaml
-/
import BackupRestore.Settings
import BackupRestore.Yaml.Document
import BackupRestore.Yaml.Value

namespace BackupRestore

open Yaml

/-- A setting that a document may change. -/
inductive Field where
  | chunkSize
  | incrementalDir
  | fullDir
deriving Repr, Inhabited, DecidableEq

namespace Field

/-- The setting's name in a document. -/
def name : Field → String
  | chunkSize => "chunk_size"
  | incrementalDir => "incremental_dir"
  | fullDir => "full_dir"

/-- All settings that a document may change. -/
def all : List Field := [chunkSize, incrementalDir, fullDir]

/-- The setting with a name. -/
def ofName? (name : String) : Option Field := all.find? (·.name == name)

end Field

/-- What stands where something else is expected. -/
inductive Found where
  | value (value : Value)
  | sequence
  | mapping
deriving Repr, Inhabited, DecidableEq

/-- What was found, as it is named in a message. -/
def Found.describe : Found → String
  | value v => v.describe
  | sequence => "sequence"
  | mapping => "map"

/-- What is wrong with a part of a document. -/
inductive Mismatch where
  | unknownField (name : String)
  | duplicateField (field : Field)
  /-- Something of another kind is expected. -/
  | wrongKind (found : Found) (expected : String)
  /-- The text does not spell a value of the kind that its tag names. -/
  | wrongText (text expected : String)
deriving Repr, Inhabited, DecidableEq

/-- The wording of the complaint. -/
def Mismatch.message : Mismatch → String
  | unknownField name =>
      "unknown field \x60" ++ name ++ "\x60, expected one of " ++
        ", ".intercalate (Field.all.map fun field => "\x60" ++ field.name ++ "\x60")
  | duplicateField field => "duplicate field \x60" ++ field.name ++ "\x60"
  | wrongKind found expected => "invalid type: " ++ found.describe ++ ", expected " ++ expected
  | wrongText text expected =>
      "invalid value: string " ++ Text.quoted text ++ ", expected " ++ expected

/-- Why a document gives no changes. -/
inductive DocumentFault where
  | malformed (fault : SyntaxFault)
  /-- The document ends before the mapping does. -/
  | unfinished
  /-- Another document follows. -/
  | severalDocuments
  /-- A part of the document does not fit; `owner` names the setting that it belongs
  to. -/
  | misfit (mismatch : Mismatch) (place : Place) (owner : Option String)
deriving Repr, Inhabited, DecidableEq

/-- The wording of the fault.  A place is told unless it is the very beginning. -/
def DocumentFault.message : DocumentFault → String
  | malformed fault => fault.message
  | unfinished => "EOF while parsing a value"
  | severalDocuments => "deserializing from YAML containing more than one document is not supported"
  | misfit mismatch place owner =>
      (match owner with
        | some name => name ++ ": "
        | none => "") ++
        mismatch.message ++ place.suffix

namespace Yaml

/-- The tags of the values that are not texts. -/
def valueTag (kind : String) : String := "tag:yaml.org,2002:" ++ kind

namespace Event

/-- What a scalar means.  A tag asks for a kind of value; without one, and with a tag
of the document's own, a plain scalar means what its text looks like. -/
def meaning (tag : Option String) (text : String) (style : ScalarStyle) :
    Except Mismatch Value :=
  let plainOrText : Value := if style = .plain then .ofPlain text else .text text
  match tag with
  | none => .ok plainOrText
  | some tag =>
      if tag = valueTag "bool" then
        match readBoolean? text with
        | some b => .ok (.boolean b)
        | none => .error (.wrongText text "a boolean")
      else if tag = valueTag "int" then
        match readInteger? text.toList with
        | some n => .ok (.integer n)
        | none => .error (.wrongText text "an integer")
      else if tag = valueTag "float" then
        match readReal? text with
        | some r => .ok (.real r)
        | none => .error (.wrongText text "a float")
      else if tag = valueTag "null" then
        if isNullWord text then .ok .null else .error (.wrongText text "null")
      else if tag.toList.head? = some '!' then .ok plainOrText
      else .ok (.text text)

/-- The complaint that an event stands where something else is expected. -/
def refuse (event : Event) (expected : String) : Mismatch :=
  match event.kind with
  | .scalar text style =>
      match meaning event.tag text style with
      | .ok value => .wrongKind (.value value) expected
      | .error mismatch => mismatch
  | .sequenceStart | .sequenceEnd => .wrongKind .sequence expected
  | .mappingStart | .mappingEnd | .reference _ => .wrongKind .mapping expected

/-- Whether a setting is given at all: a plain scalar may say that it is absent. -/
def isGiven (event : Event) : Except Mismatch Bool :=
  match event.kind with
  | .scalar text .plain =>
      if event.tag = some (valueTag "null") then
        if isNullWord text then .ok false else .error (.wrongText text "null")
      else if event.tag.isSome then .ok true
      else .ok !(text.isEmpty || isNullWord text)
  | _ => .ok true

/-- The number that an event gives.  A literal block gives one if its tag says so. -/
def readSize (event : Event) : Except Mismatch Nat :=
  let read (text : String) : Except Mismatch Nat :=
    match readUnsigned? text.toList with
    | some n => if n < Text.word64Bound then .ok n else .error (event.refuse "usize")
    | none => .error (event.refuse "usize")
  match event.kind with
  | .scalar text .plain => read text
  | .scalar text .literal =>
      if event.tag = some (valueTag "int") then read text else .error (event.refuse "usize")
  | _ => .error (event.refuse "usize")

/-- The text that an event gives. -/
def readText (event : Event) : Except Mismatch String :=
  match event.kind with
  | .scalar text _ => .ok text
  | _ => .error (event.refuse "a string")

end Event

end Yaml

namespace Overrides

/-- The changes with a setting changed as an event says. -/
def setFrom (o : Overrides) (event : Event) : Field → Except Mismatch Overrides
  | .chunkSize => event.readSize.map fun n => { o with chunkSize := some n }
  | .incrementalDir => event.readText.map fun s => { o with incrementalDir := some s }
  | .fullDir => event.readText.map fun s => { o with fullDir := some s }

/-- Read the entries of the mapping that begins at `mapping`.  `seen` holds the
settings that have been named; `broken` is what ends the document early. -/
def readEntries (mapping : Place) (broken : DocumentFault) (seen : List Field) (o : Overrides) :
    List Part → Except DocumentFault Overrides
  | [] => .error broken
  | key :: rest =>
      let keyFault (mismatch : Mismatch) : Except DocumentFault Overrides :=
        .error (.misfit mismatch key.event.place none)
      match key.event.kind with
      | .mappingEnd => .ok o
      | .scalar name _ =>
          match Field.ofName? name with
          | none => keyFault (.unknownField name)
          | some field =>
              if seen.contains field then .error (.misfit (.duplicateField field) mapping none)
              else
                match rest with
                | [] => .error broken
                | value :: rest =>
                    let owner := if key.isReference then "?" else name
                    match value.event.isGiven with
                    | .error mismatch => .error (.misfit mismatch mapping none)
                    | .ok false => readEntries mapping broken (field :: seen) o rest
                    | .ok true =>
                        match o.setFrom value.event field with
                        | .error mismatch =>
                            .error (.misfit mismatch value.event.place (some owner))
                        | .ok o => readEntries mapping broken (field :: seen) o rest
      | _ => keyFault (key.event.refuse "field identifier")

/-- The changes that a document asks for.  An empty one asks for none. -/
def ofDocument (d : Document) : Except DocumentFault Overrides := do
  let broken :=
    match d.fault with
    | some fault => .malformed fault
    | none => .unfinished
  let changes ←
    match d.parts with
    | [] => if d.fault.isSome then .error broken else .ok {}
    | first :: rest =>
        match first.event.kind with
        | .mappingStart => readEntries first.event.place broken [] {} rest
        | .scalar "" .plain => .ok {}
        | _ =>
            .error (.misfit (first.event.refuse "struct RestoreConfigOverrides") first.event.place
              none)
  if d.fault.isSome then .error broken
  else if !d.isOnly then .error .severalDocuments
  else return changes

/-- The changes that the text of a document asks for. -/
def ofYaml (text : String) : Except RestoreError Overrides :=
  match ofDocument (.ofText text) with
  | .ok changes => .ok changes
  | .error fault => .error (.config ("invalid config: " ++ fault.message))

end Overrides

end BackupRestore
