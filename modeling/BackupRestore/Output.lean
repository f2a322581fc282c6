/-
Module: BackupRestore.Output
Purpose: A destination of bytes that may take them in pieces, or refuse them.
Main exports: Output, Output.taken, Output.write, Output.writeAll, Output.flush
-/
import BackupRestore.IoError

namespace BackupRestore

/-!
An output is described by how it answers.  `onWrite` sees which write this is
and how much has been taken before, and says how many of the bytes offered are
taken or why none is; `onFlush` sees which flush this is.  So every sequence of
partial writes, refusals and failing flushes is some output.
-/

/-- A destination of bytes. -/
structure Output where
  /-- The answer to a write: its number, the bytes taken so far, the bytes offered. -/
  onWrite : (call taken offered : Nat) → Except IoError Nat
  /-- The answer to a flush, by its number. -/
  onFlush : (call : Nat) → Option IoError
  writes : Nat := 0
  flushes : Nat := 0
  /-- How many bytes have been taken. -/
  count : Nat := 0
  /-- The bytes taken, the latest first. -/
  latestFirst : List UInt8 := []

namespace Output

/-- The output that takes everything at once. -/
def willing : Output where
  onWrite _ _ offered := .ok offered
  onFlush _ := none

/-- The bytes taken, in order. -/
def taken (o : Output) : List UInt8 := o.latestFirst.reverse

/-- Take the first `n` of some bytes. -/
def accept (o : Output) (bytes : List UInt8) (n : Nat) : Output :=
  { o with
    count := o.count + min n bytes.length
    latestFirst := (bytes.take n).reverseAux o.latestFirst }

@[simp] theorem taken_accept (o : Output) (bytes : List UInt8) (n : Nat) :
    (o.accept bytes n).taken = o.taken ++ bytes.take n := by
  simp [accept, taken, List.reverseAux_eq]

/-- Offer some bytes once. -/
def write (o : Output) (bytes : List UInt8) : Except IoError Nat × Output :=
  let next := { o with writes := o.writes + 1 }
  match o.onWrite o.writes o.count bytes.length with
  | .error e => (.error e, next)
  | .ok n => (.ok n, next.accept bytes n)

/-- Offer bytes until all of them are taken.  An output that takes none of the
bytes offered has failed. -/
def writeAll (o : Output) (bytes : List UInt8) : Except IoError Unit × Output :=
  match bytes with
  | [] => (.ok (), o)
  | b :: rest =>
      match o.write (b :: rest) with
      | (.error e, o) => (.error e, o)
      | (.ok 0, o) => (.error .nothingTaken, o)
      | (.ok (n + 1), o) => o.writeAll (rest.drop n)
termination_by bytes.length
decreasing_by simp only [List.length_drop, List.length_cons]; omega

/-- Ask the output to pass on what it has taken. -/
def flush (o : Output) : Except IoError Unit × Output :=
  let next := { o with flushes := o.flushes + 1 }
  match o.onFlush o.flushes with
  | some e => (.error e, next)
  | none => (.ok (), next)

end Output

end BackupRestore
