/-
Module: BackupRestore.Layout
Purpose: Where a package's entries are found in an archive.
Main exports: Layout, Layout.ofDirectories, Layout.recordsOf, Layout.recordPath,
  Layout.streamPath, Layout.lastSegment
-/

namespace BackupRestore

/-- The two directories of an archive, each spelled with its final separator. -/
structure Layout where
  incrementalDir : String
  fullDir : String
deriving Repr, Inhabited, DecidableEq

namespace Layout

/-- A directory name with its final separator. -/
def closed (dir : String) : String :=
  if dir.toList.getLast? = some '/' then dir else dir ++ "/"

/-- The layout with the two directories given. -/
def ofDirectories (incrementalDir fullDir : String) : Layout :=
  { incrementalDir := closed incrementalDir, fullDir := closed fullDir }

/-- The beginning that the names of all records of a package share.  Its final
separator keeps a package from taking the records of one with a longer name. -/
def recordsOf (layout : Layout) (package : String) : String :=
  layout.incrementalDir ++ package ++ "/"

/-- The entry name of one record. -/
def recordPath (layout : Layout) (package keyName : String) : String :=
  layout.recordsOf package ++ keyName

theorem toList_recordsOf (layout : Layout) (package : String) :
    (layout.recordsOf package).toList =
      layout.incrementalDir.toList ++ (package.toList ++ ['/']) := by
  simp only [recordsOf, String.toList_append, List.append_assoc]
  rfl

theorem toList_recordPath (layout : Layout) (package keyName : String) :
    (layout.recordPath package keyName).toList =
      (layout.recordsOf package).toList ++ keyName.toList := by
  rw [recordPath, String.toList_append]

/-- The entry name of a package's full stream. -/
def streamPath (layout : Layout) (package : String) : String :=
  layout.fullDir ++ package

/-- What follows the last separator of an entry name. -/
def lastSegment (entryName : String) : String :=
  String.ofList (entryName.toList.reverse.takeWhile (· ≠ '/')).reverse

end Layout

end BackupRestore
