/-
Module: BackupRestore.Main
Purpose: The program `zipvault` on real files.
Main exports: main
-/
import BackupRestore.Command.Program

namespace BackupRestore.Command

/-!
The files that a request names are loaded into a tree, the command is a function
on that tree, and what it has changed is stored.  No decoders are at hand for records in
other methods, so those fail.
-/

/-- The path of a location. -/
def realPath (place : Location) : String := "/" ++ "/".intercalate place

/-- What stands at a real location, if anything does. -/
def loadNode (place : Location) : IO (Option Node) := do
  try
    let bytes ← IO.FS.readBinFile (realPath place)
    return some (.file bytes.data)
  catch
    | .inappropriateType .. => return some .directory
    | .noFileOrDirectory .. => return none
    | e => throw e

/-- Load what stands at a location, unless that has been done. -/
def loadInto (files : FileTree) (place : Location) : IO FileTree := do
  if (files.node? place).isSome then return files
  else
    match ← loadNode place with
    | some node => return files.set place node
    | none => return files

/-- Load everything on the way of a path. -/
def loadPath (files : FileTree) (path : PathName) : IO FileTree := do
  let mut files := files
  let mut place := if path.isAbsolute then [] else files.here
  for name in path.names do
    if name == ".." then place := place.dropLast
    else if name != "." then
      place := place ++ [name]
      if (files.node? place.dropLast) == some .directory then
        files ← loadInto files place
  return files

/-- Store what is different in the second of two trees. -/
def storeChanges (before after : FileTree) : IO Unit := do
  for (place, node) in after.nodes.reverse do
    if before.node? place != some node then
      match node with
      | .directory => IO.FS.createDir (realPath place)
      | .file content => IO.FS.writeBinFile (realPath place) ⟨content⟩
  for (place, _) in before.nodes do
    if (after.node? place).isNone then IO.FS.removeFile (realPath place)

/-- Run the program with the words of a command line. -/
def runMain (words : List String) : IO UInt32 := do
  let archive ← IO.getEnv "ZIPVAULT_ARCHIVE"
  let chunkSize ← IO.getEnv Overrides.chunkSizeVariable
  let incrementalDir ← IO.getEnv Overrides.incrementalDirVariable
  let fullDir ← IO.getEnv Overrides.fullDirVariable
  let environment (name : String) : Option String :=
    if name == "ZIPVAULT_ARCHIVE" then archive
    else if name == Overrides.chunkSizeVariable then chunkSize
    else if name == Overrides.incrementalDirVariable then incrementalDir
    else if name == Overrides.fullDirVariable then fullDir
    else none
  match Request.ofWords environment words with
  | .error fault =>
      IO.eprint (joinLines ["error: " ++ fault.message])
      return UInt32.ofNat failureCode
  | .ok request =>
      let here := PathName.ofText (toString (← IO.currentDir))
      let mut before ← loadPath {} here
      before := { before with here := here.names }
      for path in request.paths do
        before ← loadPath before (.ofText path)
      let (report, after) := run environment before request
      IO.print (joinLines report.output)
      storeChanges before after
      IO.eprint (joinLines report.messages)
      return UInt32.ofNat report.code

end BackupRestore.Command

/-- The program. -/
def main (words : List String) : IO UInt32 := BackupRestore.Command.runMain words
