/-
Module: BackupRestore.FileTree
Purpose: Files and directories, and the operations on them that commands need.
Main exports: FileFault, Node, FileTree, PathName, FileTree.find, FileTree.readFile,
  FileTree.makeDirectories, FileTree.createFile, FileTree.write, FileTree.remove
-/
import BackupRestore.Bytes.Words
import BackupRestore.Text.Utf8

namespace BackupRestore

/-!
A location is the list of names on the way from the top of the tree.  A path is a
text that leads to a location: from the top, or from the directory in which a
command runs.  The tree has no links, so a path leads to one location only, but
several paths may lead to the same one.
-/

/-- Why an operation on files fails. -/
inductive FileFault where
  | notFound
  | alreadyExists
  | notDirectory
  | isDirectory
  | nameTooLong
deriving Repr, Inhabited, DecidableEq

/-- The wording of the fault. -/
def FileFault.message : FileFault → String
  | notFound => "No such file or directory (os error 2)"
  | alreadyExists => "File exists (os error 17)"
  | notDirectory => "Not a directory (os error 20)"
  | isDirectory => "Is a directory (os error 21)"
  | nameTooLong => "File name too long (os error 36)"

/-- What stands at a location. -/
inductive Node where
  | directory
  | file (content : Content)
deriving Repr, Inhabited, DecidableEq

/-- The names on the way from the top of a tree. -/
abbrev Location := List String

/-- Files and directories.  There is always a directory at the top. -/
structure FileTree where
  nodes : List (Location × Node) := []
  /-- The directory from which relative paths lead. -/
  here : Location := []
deriving Repr, Inhabited, DecidableEq

/-- A path. -/
structure PathName where
  isAbsolute : Bool := false
  /-- The names between the separators; those without a character are left out. -/
  names : List String
  /-- The path can only lead to a directory. -/
  endsInSlash : Bool := false
  /-- There are more bytes than a path may have. -/
  isTooLong : Bool := false
deriving Repr, Inhabited, DecidableEq

/-- The pieces of a text between slashes. -/
def piecesBetweenSlashes : List Char → List (List Char)
  | [] => [[]]
  | c :: rest =>
      match piecesBetweenSlashes rest with
      | [] => [[c]]
      | piece :: pieces => if c == '/' then [] :: piece :: pieces else (c :: piece) :: pieces

/-- How many bytes a text has. -/
def byteLength (text : String) : Nat := (Text.utf8Bytes text).length

/-- The most bytes that a path may have. -/
def pathLimit : Nat := 4095

/-- The most bytes that a name may have. -/
def nameLimit : Nat := 255

namespace PathName

/-- The path that a text spells. -/
def ofText (text : String) : PathName where
  isAbsolute := text.toList.head? == some '/'
  names :=
    ((piecesBetweenSlashes text.toList).filter (!·.isEmpty)).map String.ofList
  endsInSlash := text.toList.getLast? == some '/'
  isTooLong := pathLimit < byteLength text

/-- A path that leads nowhere, not even to the directory where it begins. -/
def isEmpty (p : PathName) : Bool := !p.isAbsolute && p.names.isEmpty

end PathName

namespace FileTree

/-- What stands at a location, if anything does. -/
def node? (t : FileTree) (place : Location) : Option Node :=
  if place = [] then some .directory else t.nodes.lookup place

/-- The tree with something else at a location. -/
def set (t : FileTree) (place : Location) (node : Node) : FileTree :=
  { t with nodes := (place, node) :: t.nodes.filter (·.1 != place) }

/-- The tree with nothing at a location. -/
def remove (t : FileTree) (place : Location) : FileTree :=
  { t with nodes := t.nodes.filter (·.1 != place) }

/-- The tree with a file that holds some bytes. -/
def write (t : FileTree) (place : Location) (content : Content) : FileTree :=
  t.set place (.file content)

theorem lookup_cons_ne {nodes : List (Location × Node)} {place other : Location} {node : Node}
    (h : other ≠ place) : ((place, node) :: nodes).lookup other = nodes.lookup other := by
  rw [List.lookup_cons, beq_false_of_ne h]

theorem lookup_filter_ne {nodes : List (Location × Node)} {place other : Location}
    (h : other ≠ place) :
    (nodes.filter (·.1 != place)).lookup other = nodes.lookup other := by
  induction nodes with
  | nil => rfl
  | cons entry rest ih =>
    obtain ⟨p, n⟩ := entry
    by_cases hp : p = place
    · subst hp
      rw [List.filter_cons_of_neg (by simp), ih, lookup_cons_ne h]
    · rw [List.filter_cons_of_pos (by simpa using hp), List.lookup_cons, List.lookup_cons, ih]

theorem lookup_filter_self {nodes : List (Location × Node)} {place : Location} :
    (nodes.filter (·.1 != place)).lookup place = none := by
  induction nodes with
  | nil => rfl
  | cons entry rest ih =>
    obtain ⟨p, n⟩ := entry
    by_cases hp : p = place
    · subst hp
      rw [List.filter_cons_of_neg (by simp), ih]
    · rw [List.filter_cons_of_pos (by simpa using hp), lookup_cons_ne (Ne.symm hp), ih]

@[simp] theorem node?_set_self {t : FileTree} {place : Location} {node : Node}
    (h : place ≠ []) : (t.set place node).node? place = some node := by
  simp [node?, set, h]

theorem node?_set_of_ne {t : FileTree} {place other : Location} {node : Node}
    (h : other ≠ place) : (t.set place node).node? other = t.node? other := by
  simp only [node?, set]
  split
  · rfl
  · rw [lookup_cons_ne h, lookup_filter_ne h]

@[simp] theorem node?_remove_self {t : FileTree} {place : Location} (h : place ≠ []) :
    (t.remove place).node? place = none := by
  simp [node?, remove, h, lookup_filter_self]

theorem node?_remove_of_ne {t : FileTree} {place other : Location} (h : other ≠ place) :
    (t.remove place).node? other = t.node? other := by
  simp only [node?, remove]
  split
  · rfl
  · rw [lookup_filter_ne h]

/-- Follow names from a location.  Whether anything stands where the last of them
leads is not looked at. -/
def follow (t : FileTree) (place : Location) : List String → Except FileFault Location
  | [] => .ok place
  | name :: rest =>
      match t.node? place with
      | none => .error .notFound
      | some (.file _) => .error .notDirectory
      | some .directory =>
          if name = "." then t.follow place rest
          else if name = ".." then t.follow place.dropLast rest
          else if nameLimit < byteLength name then .error .nameTooLong
          else t.follow (place ++ [name]) rest

/-- The location from which a path leads. -/
def start (t : FileTree) (path : PathName) : Except FileFault Location :=
  if path.isTooLong then .error .nameTooLong
  else if path.isEmpty then .error .notFound
  else .ok (if path.isAbsolute then [] else t.here)

/-- What stands where a path leads, and its location. -/
def find (t : FileTree) (path : PathName) : Except FileFault (Location × Node) := do
  let place ← t.follow (← t.start path) path.names
  match t.node? place with
  | none => .error .notFound
  | some .directory => .ok (place, .directory)
  | some (.file content) =>
      if path.endsInSlash then .error .notDirectory else .ok (place, .file content)

/-- A path leads to a file. -/
def isFile (t : FileTree) (path : PathName) : Bool :=
  match t.find path with
  | .ok (_, .file _) => true
  | _ => false

/-- A path leads to a directory. -/
def isDirectory (t : FileTree) (path : PathName) : Bool :=
  match t.find path with
  | .ok (_, .directory) => true
  | _ => false

/-- The bytes of the file to which a path leads. -/
def readFile (t : FileTree) (path : PathName) : Except FileFault Content := do
  match ← t.find path with
  | (_, .file content) => .ok content
  | (_, .directory) => .error .isDirectory

/-- Where a path leads: a directory that is there, and a last name in it, which may
stand for something new.  A path that leads to a directory by its form has no such
name. -/
def findParent (t : FileTree) (path : PathName) :
    Except FileFault (Location × Option String) := do
  let first ← t.start path
  match path.names.getLast? with
  | none => .ok (first, none)
  | some name =>
      let place ← t.follow first path.names.dropLast
      match t.node? place with
      | none => .error .notFound
      | some (.file _) => .error .notDirectory
      | some .directory =>
          if name = "." ∨ name = ".." then .ok (place, none)
          else if nameLimit < byteLength name then .error .nameTooLong
          else .ok (place, some name)

/-- Make the directory to which a path leads; the directory around it must be
there. -/
def makeDirectory (t : FileTree) (path : PathName) : Except FileFault FileTree := do
  match ← t.findParent path with
  | (_, none) => .error .alreadyExists
  | (place, some name) =>
      match t.node? (place ++ [name]) with
      | some _ => .error .alreadyExists
      | none => .ok (t.set (place ++ [name]) .directory)

/-- Make the directory to which a path leads, unless it is there. -/
def ensureDirectory (t : FileTree) (path : PathName) : Except FileFault Unit × FileTree :=
  match t.makeDirectory path with
  | .ok t => (.ok (), t)
  | .error fault => (if t.isDirectory path then .ok () else .error fault, t)

/-- Make the directory to which a path leads, unless it is there.  If the directory
around it is missing, `makeParent` makes that one first. -/
def ensureDirectoryIn (t : FileTree) (path : PathName)
    (makeParent : Unit → Except FileFault Unit × FileTree) : Except FileFault Unit × FileTree :=
  match t.makeDirectory path with
  | .error .notFound =>
      match makeParent () with
      | (.error fault, t) => (.error fault, t)
      | (.ok _, t) => t.ensureDirectory path
  | _ => t.ensureDirectory path

/-- Make the directories on the way along names, which are given from the last to
the first. -/
def makeAlong (t : FileTree) (isAbsolute : Bool) :
    List String → Except FileFault Unit × FileTree
  | [] => (.ok (), t)
  | name :: before =>
      t.ensureDirectoryIn { isAbsolute, names := (name :: before).reverse }
        fun _ => t.makeAlong isAbsolute before

/-- Make the directory to which a path leads, and those on the way to it.  What has
been made before a fault stays. -/
def makeDirectories (t : FileTree) (path : PathName) : Except FileFault Unit × FileTree :=
  t.ensureDirectoryIn path fun _ =>
    t.makeAlong path.isAbsolute (path.names.filter (· != ".")).reverse.tail

/-- Make an empty file where a path leads, or empty the file that is there.  Gives
its location. -/
def createFile (t : FileTree) (path : PathName) : Except FileFault (Location × FileTree) := do
  match ← t.findParent path with
  | (_, none) => .error .isDirectory
  | (place, some name) =>
      match t.node? (place ++ [name]) with
      | some .directory => .error .isDirectory
      | _ =>
          if path.endsInSlash then .error .isDirectory
          else .ok (place ++ [name], t.write (place ++ [name]) #[])

end FileTree

end BackupRestore
