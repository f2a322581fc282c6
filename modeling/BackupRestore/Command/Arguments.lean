/-
Module: BackupRestore.Command.Arguments
Purpose: What the words of a command line ask for.
Main exports: SourceOptions, Request, UsageFault, UsageFault.message, Request.ofWords
-/
import BackupRestore.Text.Number

namespace BackupRestore.Command

/-!
A command line is a command and what belongs to it.  Options may stand before and
after other words; behind a lone double dash every word is taken as it is.  An
option has two dashes and a name, and its value is the next word or follows an
equals sign.  Letters behind a single dash are switches.
-/

/-- The archive that a command works on, and the settings for it. -/
structure SourceOptions where
  archive : String
  config : Option String := none
  chunkSize : Option Nat := none
deriving Repr, Inhabited, DecidableEq

/-- What a command line asks for. -/
inductive Request where
  | version
  | help
  /-- List the restore sets that the archive offers. -/
  | sets (source : SourceOptions)
  /-- Show which of the packages have data, and how it is stored. -/
  | list (source : SourceOptions) (packages : List String)
  /-- Restore packages into a directory. -/
  | restore (source : SourceOptions) (out : String) (token : Option Nat) (packages : List String)
  /-- Show the records of a restored file. -/
  | dump (file : String)
deriving Repr, Inhabited, DecidableEq

/-- The options that take a value. -/
inductive OptionName where
  | archive
  | config
  | chunkSize
  | out
  | token
deriving Repr, Inhabited, DecidableEq

/-- The option's name on a command line. -/
def OptionName.spelling : OptionName → String
  | archive => "archive"
  | config => "config"
  | chunkSize => "chunk-size"
  | out => "out"
  | token => "token"

/-- Why a command line cannot be understood. -/
inductive UsageFault where
  | noCommand
  | unknownCommand (name : String)
  | unknownOption (text : String)
  | valueMissing (name : String)
  | valueUnexpected (name : String)
  | repeated (name : String)
  | badValue (name value : String)
  | argumentMissing (name : String)
  | argumentUnexpected (text : String)
deriving Repr, Inhabited, DecidableEq

/-- The wording of the fault. -/
def UsageFault.message : UsageFault → String
  | noCommand => "a command is needed"
  | unknownCommand name => "there is no command '" ++ name ++ "'"
  | unknownOption text => "there is no option '" ++ text ++ "' here"
  | valueMissing name => "the option '--" ++ name ++ "' needs a value"
  | valueUnexpected name => "the switch '--" ++ name ++ "' takes no value"
  | repeated name => "'--" ++ name ++ "' is given more than once"
  | badValue name value => "'" ++ value ++ "' is no value for '" ++ name ++ "'"
  | argumentMissing name => "'" ++ name ++ "' is missing"
  | argumentUnexpected text => "the word '" ++ text ++ "' is not expected"

/-- What ends the reading of a command line early. -/
inductive Interruption where
  | fault (fault : UsageFault)
  | help
  | version
deriving Repr, Inhabited, DecidableEq

/-- What a word is by its form. -/
inductive Word where
  /-- The double dash behind which there are no options. -/
  | lastDash
  | long (name : String) (value : Option String)
  | short (letters : List Char)
  | plain (text : String)
deriving Repr, Inhabited, DecidableEq

/-- The form of a word. -/
def Word.ofText (text : String) : Word :=
  match text.toList with
  | ['-', '-'] => .lastDash
  | '-' :: '-' :: rest =>
      let name := String.ofList (rest.takeWhile (· != '='))
      match rest.dropWhile (· != '=') with
      | [] => .long name none
      | _ :: value => .long name (some (String.ofList value))
  | '-' :: letter :: rest => .short (letter :: rest)
  | _ => .plain text

/-- The words that a command takes besides its options. -/
inductive Places where
  | none
  /-- One path. -/
  | path
  /-- Any number of texts. -/
  | texts
deriving Repr, Inhabited, DecidableEq

/-- What a command takes. -/
structure Shape where
  options : List OptionName
  places : Places
deriving Repr, Inhabited, DecidableEq

/-- What has been read of a command. -/
structure Gathered where
  values : List (OptionName × String) := []
  /-- The words that are no options, the latest first. -/
  words : List String := []
  isVerbose : Bool := false
deriving Repr, Inhabited, DecidableEq

/-- A text that an option accepts as its value: a path is not empty, and a number
has at most 64 bits. -/
def OptionName.accepts : OptionName → String → Bool
  | archive, value | config, value | out, value => !value.isEmpty
  | chunkSize, value | token, value => (Text.parseWord64 value).toOption.isSome

namespace Gathered

/-- Add the value of an option. -/
def addValue (g : Gathered) (option : OptionName) (value : String) :
    Except Interruption Gathered :=
  if (g.values.lookup option).isSome then .error (.fault (.repeated option.spelling))
  else if !option.accepts value then .error (.fault (.badValue option.spelling value))
  else .ok { g with values := (option, value) :: g.values }

/-- Add a word that is no option. -/
def addWord (g : Gathered) (places : Places) (word : String) : Except Interruption Gathered :=
  match places with
  | .none => .error (.fault (.argumentUnexpected word))
  | .path =>
      if !g.words.isEmpty then .error (.fault (.argumentUnexpected word))
      else if word.isEmpty then .error (.fault (.badValue "file" word))
      else .ok { g with words := [word] }
  | .texts => .ok { g with words := word :: g.words }

/-- Turn on the switch that asks for more messages. -/
def addVerbose (g : Gathered) : Except Interruption Gathered :=
  if g.isVerbose then .error (.fault (.repeated "verbose")) else .ok { g with isVerbose := true }

/-- Add a group of switches. -/
def addLetters (g : Gathered) (isTop : Bool) : List Char → Except Interruption Gathered
  | [] => .ok g
  | letter :: rest =>
      if letter == 'v' then do (← g.addVerbose).addLetters isTop rest
      else if letter == 'h' then .error .help
      else if isTop && letter == 'V' then .error .version
      else .error (.fault (.unknownOption (String.ofList ['-', letter])))

/-- Add a switch by its name. -/
def addSwitch (g : Gathered) (isTop : Bool) (name : String) (value : Option String) :
    Except Interruption Gathered :=
  if name == "verbose" || name == "help" || (isTop && name == "version") then
    if value.isSome then .error (.fault (.valueUnexpected name))
    else if name == "verbose" then g.addVerbose
    else if name == "help" then .error .help
    else .error .version
  else .error (.fault (.unknownOption ("--" ++ name)))

/-- Read the words behind a command's name. -/
def readWords (shape : Shape) (g : Gathered) : List String → Except Interruption Gathered
  | [] => .ok g
  | word :: rest =>
      match Word.ofText word with
      | .lastDash => rest.foldlM (fun g word => g.addWord shape.places word) g
      | .plain text => do readWords shape (← g.addWord shape.places text) rest
      | .short letters => do readWords shape (← g.addLetters false letters) rest
      | .long name value =>
          match shape.options.find? (·.spelling == name) with
          | none => do readWords shape (← g.addSwitch false name value) rest
          | some option =>
              match value with
              | some value => do readWords shape (← g.addValue option value) rest
              | none =>
                  match rest with
                  | [] => .error (.fault (.valueMissing name))
                  | next :: rest =>
                      match Word.ofText next with
                      | .plain value => do readWords shape (← g.addValue option value) rest
                      | _ => .error (.fault (.valueMissing name))

/-- The words that are no options, in order; at least one is needed. -/
def packages (g : Gathered) : Except Interruption (List String) :=
  if g.words.isEmpty then .error (.fault (.argumentMissing "packages"))
  else .ok g.words.reverse

/-- The number that an option gives. -/
def number? (g : Gathered) (option : OptionName) : Option Nat :=
  (g.values.lookup option).bind fun value => (Text.parseWord64 value).toOption

/-- The archive and its settings.  A variable stands in for the archive that is not
given. -/
def source (g : Gathered) (environment : String → Option String) :
    Except Interruption SourceOptions := do
  let g ←
    match g.values.lookup .archive, environment "ZIPVAULT_ARCHIVE" with
    | none, some archive => g.addValue .archive archive
    | _, _ => .ok g
  match g.values.lookup .archive with
  | none => .error (.fault (.argumentMissing "--archive"))
  | some archive =>
      return { archive, config := g.values.lookup .config, chunkSize := g.number? .chunkSize }

end Gathered

/-- The options that choose an archive. -/
def sourceOptionNames : List OptionName := [.archive, .config, .chunkSize]

/-- The names of all commands. -/
def commandNames : List String := ["sets", "list", "restore", "dump", "help"]

/-- Read the words behind a command's name.  Help is given on one command, or on the
program. -/
def readCommand (environment : String → Option String) (name : String) (words : List String) :
    Except Interruption Request :=
  match name with
  | "sets" => do
      let g ← Gathered.readWords { options := sourceOptionNames, places := .none } {} words
      return .sets (← g.source environment)
  | "list" => do
      let g ← Gathered.readWords { options := sourceOptionNames, places := .texts } {} words
      return .list (← g.source environment) (← g.packages)
  | "restore" => do
      let g ← Gathered.readWords
        { options := sourceOptionNames ++ [.out, .token], places := .texts } {} words
      let source ← g.source environment
      let packages ← g.packages
      match g.values.lookup .out with
      | none => .error (.fault (.argumentMissing "--out"))
      | some out => return .restore source out (g.number? .token) packages
  | "dump" => do
      let g ← Gathered.readWords { options := [], places := .path } {} words
      match g.words with
      | file :: _ => return .dump file
      | [] => .error (.fault (.argumentMissing "file"))
  | "help" =>
      match words.filter (!commandNames.contains ·), words with
      | [], [] | [], [_] => .error .help
      | unknown :: _, _ | [], _ :: unknown :: _ => .error (.fault (.unknownCommand unknown))
  | _ => .error (.fault (.unknownCommand name))

/-- Read a command line up to the command's name, and then the rest. -/
def readLine (environment : String → Option String) (g : Gathered) :
    List String → Except Interruption Request
  | [] => .error (.fault .noCommand)
  | word :: rest =>
      match Word.ofText word with
      | .lastDash =>
          match rest with
          | [] => .error (.fault .noCommand)
          | next :: _ => .error (.fault (.argumentUnexpected next))
      | .plain name => readCommand environment name rest
      | .short letters => do readLine environment (← g.addLetters true letters) rest
      | .long name value => do readLine environment (← g.addSwitch true name value) rest

/-- What a command line asks for.  `environment` gives the values of variables. -/
def Request.ofWords (environment : String → Option String) (words : List String) :
    Except UsageFault Request :=
  match readLine environment {} words with
  | .ok request => .ok request
  | .error .help => .ok .help
  | .error .version => .ok .version
  | .error (.fault fault) => .error fault

end BackupRestore.Command
