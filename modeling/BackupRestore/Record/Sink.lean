/-
Module: BackupRestore.Record.Sink
Purpose: Destinations of restored records.
Main exports: RecordSink, SinkCall, SinkLog
-/
import BackupRestore.IoError

namespace BackupRestore

/-- A destination of records: each is announced by its key and the length of its
value, and then its value is handed over. -/
class RecordSink (σ : Type) where
  /-- Announce the next record. -/
  header : σ → (key : List UInt8) → (valueLength : Nat) → Except IoError Unit × σ
  /-- Hand over the value that was announced. -/
  data : σ → (value : List UInt8) → Except IoError Unit × σ

/-- One call that a sink has received. -/
inductive SinkCall where
  | header (key : List UInt8) (valueLength : Nat)
  | data (value : List UInt8)
deriving Repr, Inhabited, DecidableEq

/-- A sink that keeps the calls it accepts, and refuses some by their number. -/
structure SinkLog where
  /-- The answer to an announcement, by its number. -/
  onHeader : (call : Nat) → Option IoError
  /-- The answer to a value, by its number. -/
  onData : (call : Nat) → Option IoError
  headers : Nat := 0
  values : Nat := 0
  /-- The calls accepted, the latest first. -/
  latestFirst : List SinkCall := []

namespace SinkLog

/-- The sink that refuses nothing. -/
def willing : SinkLog where
  onHeader _ := none
  onData _ := none

/-- The calls accepted, in order. -/
def calls (log : SinkLog) : List SinkCall := log.latestFirst.reverse

/-- Accept or refuse one call. -/
def receive (log : SinkLog) (refusal : Option IoError) (call : SinkCall) :
    Except IoError Unit × SinkLog :=
  match refusal with
  | some cause => (.error cause, log)
  | none => (.ok (), { log with latestFirst := call :: log.latestFirst })

end SinkLog

instance : RecordSink SinkLog where
  header log key valueLength :=
    { log with headers := log.headers + 1 }.receive (log.onHeader log.headers)
      (.header key valueLength)
  data log value :=
    { log with values := log.values + 1 }.receive (log.onData log.values) (.data value)

end BackupRestore
