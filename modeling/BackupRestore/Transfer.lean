/-
Module: BackupRestore.Transfer
Purpose: Moving all records of a package into a sink.
Main exports: transferRecords
-/
import BackupRestore.Archive
import BackupRestore.KeyName
import BackupRestore.Layout
import BackupRestore.Record.Sink

namespace BackupRestore

/-!
One handle serves the whole transfer.  Each record goes through the same steps in
the same order: its name is decoded, its data is read, it is announced and handed
over, and the scan goes on behind it.  The first step that fails ends the
transfer; what the sink has received by then stays with it.
-/

variable [Zip.Codecs] {σ : Type} [RecordSink σ]

/-- Move one record. -/
def transferRecord (a : Archive) (m : Medium) (sink : σ) (found : Located) :
    Except RestoreError Unit × Medium × σ :=
  match KeyName.decode (Layout.lastSegment found.name) with
  | .error e => (.error e, m, sink)
  | .ok key =>
      match a.readEntry m found.index with
      | (.error e, m) => (.error e, m, sink)
      | (.ok value, m) =>
          match RecordSink.header sink key value.length with
          | (.error cause, sink) => (.error (.io cause), m, sink)
          | (.ok _, sink) =>
              match RecordSink.data sink value with
              | (.error cause, sink) => (.error (.io cause), m, sink)
              | (.ok _, sink) => (.ok (), m, sink)

/-- Go through up to `count` entries from `index` on, and move each that matches;
`written` have been moved before. -/
def transferFrom (a : Archive) (pattern : Pattern) :
    (count index : Nat) → Medium → σ → (written : Nat) → Except RestoreError Nat × Medium × σ
  | 0, _, m, sink, written => (.ok written, m, sink)
  | count + 1, index, m, sink, written =>
      match a.directory.entries[index]? with
      | none => (.ok written, m, sink)
      | some e =>
          match a.visit m e with
          | (.error cause, m) => (.error (.archive cause), m, sink)
          | (.ok _, m) =>
              if !e.isDirectory && pattern.matches e.name then
                match transferRecord a m sink { index, name := e.name } with
                | (.error e, m, sink) => (.error e, m, sink)
                | (.ok _, m, sink) => transferFrom a pattern count (index + 1) m sink (written + 1)
              else transferFrom a pattern count (index + 1) m sink written

/-- Move every record of a package into a sink, in the order of the directory.
Gives how many there are. -/
def transferRecords (layout : Layout) (package : String) (m : Medium) (sink : σ) :
    Except RestoreError Nat × Medium × σ :=
  match Archive.openOn m with
  | (.error e, m) => (.error e, m, sink)
  | (.ok a, m) =>
      match transferFrom a (.under (layout.recordsOf package)) a.size 0 m sink 0 with
      | (answer, m, sink) => (answer, m.release, sink)

end BackupRestore
