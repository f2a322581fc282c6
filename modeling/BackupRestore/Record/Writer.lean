/-
Module: BackupRestore.Record.Writer
Purpose: A record sink that writes frames to an output.
Main exports: RecordWriter, RecordWriter.writeHeader, RecordWriter.writeData
-/
import BackupRestore.Output
import BackupRestore.Record
import BackupRestore.Record.Sink

namespace BackupRestore

/-- Writes frames to an output, header and value in turn. -/
structure RecordWriter where
  output : Output
  /-- The length that the last header declared, while its value is awaited. -/
  pending : Option Nat := none
  /-- How many frames are complete. -/
  records : Nat := 0

namespace RecordWriter

/-- Offer several blocks to an output, one after the other. -/
def writeBlocks (o : Output) : List (List UInt8) → Except IoError Unit × Output
  | [] => (.ok (), o)
  | block :: rest =>
      match o.writeAll block with
      | (.error cause, o) => (.error cause, o)
      | (.ok _, o) => writeBlocks o rest

/-- Write the header block of the next frame.  A header out of turn, or a length
that does not fit, is refused before anything is written. -/
def writeHeader (w : RecordWriter) (key : List UInt8) (valueLength : Nat) :
    Except IoError Unit × RecordWriter :=
  if w.pending.isSome then (.error .headerPending, w)
  else if Record.lengthBound ≤ key.length then (.error .keyTooLong, w)
  else if Record.lengthBound ≤ valueLength then (.error .dataTooLong, w)
  else
    match writeBlocks w.output
        [Record.fixedHeader key.length valueLength, key, [0],
          Record.padding (key.length + 1)] with
    | (.error cause, output) => (.error cause, { w with output })
    | (.ok _, output) => (.ok (), { w with output, pending := some valueLength })

/-- Write the value of the frame whose header is written, and pass it on.  A
value that no header announced, or of another length, is refused before
anything is written. -/
def writeData (w : RecordWriter) (value : List UInt8) :
    Except IoError Unit × RecordWriter :=
  match w.pending with
  | none => (.error .headerMissing, w)
  | some declared =>
      if declared ≠ value.length then (.error (.lengthMismatch value.length declared), w)
      else
        match writeBlocks w.output [value, Record.padding value.length] with
        | (.error cause, output) => (.error cause, { w with output })
        | (.ok _, output) =>
            match output.flush with
            | (.error cause, output) => (.error cause, { w with output })
            | (.ok _, output) =>
                (.ok (), { output, pending := none, records := w.records + 1 })

end RecordWriter

instance : RecordSink RecordWriter where
  header := RecordWriter.writeHeader
  data := RecordWriter.writeData

end BackupRestore
