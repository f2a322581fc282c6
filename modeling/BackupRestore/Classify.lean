/-
Module: BackupRestore.Classify
Purpose: How a package's data is stored, found out by looking.
Main exports: classify
-/
import BackupRestore.Archive
import BackupRestore.Layout
import BackupRestore.Protocol

namespace BackupRestore

/-- How a package's data is stored.  Records win over a full stream. -/
def classify (layout : Layout) (package : String) (m : Medium) :
    Except RestoreError RestoreMode × Medium :=
  match contains m (.under (layout.recordsOf package)) with
  | (.error e, m) => (.error e, m)
  | (.ok true, m) => (.ok .keyValue, m)
  | (.ok false, m) =>
      match contains m (.exactly (layout.streamPath package)) with
      | (.error e, m) => (.error e, m)
      | (.ok true, m) => (.ok .fullStream, m)
      | (.ok false, m) => (.ok .none, m)

end BackupRestore
