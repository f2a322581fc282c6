/-
Module: BackupRestore.Session
Purpose: One pass over the packages that were asked for.
Main exports: Session, Session.start, Session.nextPackage, Session.transferKeyValue,
  Session.streamChunk, Session.abort, Session.finish
-/
import BackupRestore.Classify
import BackupRestore.Settings
import BackupRestore.Stream
import BackupRestore.Transfer

namespace BackupRestore

/-- Where a session stands in its list of packages. -/
inductive ListPlace where
  | beforeFirst
  | at (index : Nat)
  | exhausted
deriving Repr, Inhabited, DecidableEq

/-- One pass over a list of packages. -/
structure Session where
  layout : Layout
  chunkSize : Nat
  token : Nat
  packages : List String
  place : ListPlace := .beforeFirst
  mode : RestoreMode := .none
  stream : Option FullStream := none

namespace Session

/-- A session before its first package. -/
def start (settings : Settings) (token : Nat) (packages : List String) : Session where
  layout := settings.layout
  chunkSize := settings.chunkSize
  token := token
  packages := packages

/-- The package chosen last. -/
def currentPackage? (s : Session) : Option String :=
  match s.place with
  | .at index => s.packages[index]?
  | .beforeFirst | .exhausted => none

/-- A full stream holds a handle. -/
def hasOpenStream (s : Session) : Bool := s.stream.any FullStream.isOpen

/-- The place of the package to look at next, if the list has not run out. -/
def nextIndex? (s : Session) : Option Nat :=
  match s.place with
  | .beforeFirst => some 0
  | .at index => some (index + 1)
  | .exhausted => none

/-- Give up the stream of the package before. -/
def dropStream (s : Session) (m : Medium) : Session × Medium :=
  match s.stream with
  | none => (s, m)
  | some stream => ({ s with stream := none }, (stream.abort m).2)

/-- Choose a package.  It stays chosen, without a stream, if it has a full stream that
cannot be prepared. -/
def choose (s : Session) (index : Nat) (package : String) (mode : RestoreMode) :
    Except Misuse NextPackage × Session :=
  let s := { s with place := .at index, mode }
  if mode = .fullStream then
    match FullStream.prepare package s.chunkSize with
    | .ok stream => (.ok (.package { package, mode }), { s with stream := some stream })
    | .error misuse => (.error misuse, s)
  else (.ok (.package { package, mode }), s)

/-- Look at the packages from `index` on, of which `remaining` are left, for the
first that has data.  A package that cannot be looked at is passed over. -/
def seekPackage (s : Session) (m : Medium) (index : Nat) (remaining : List String) :
    Except Misuse NextPackage × Session × Medium :=
  match remaining with
  | [] => (.ok .noMorePackages, { s with place := .exhausted, mode := .none }, m)
  | package :: rest =>
      match classify s.layout package m with
      | (.error _, m) | (.ok .none, m) =>
          seekPackage { s with place := .at index } m (index + 1) rest
      | (.ok mode, m) =>
          let (answer, s) := s.choose index package mode
          (answer, s, m)

/-- Go on to the next package that has data. -/
def nextPackage (s : Session) (m : Medium) : Except Misuse NextPackage × Session × Medium :=
  let (s, m) := s.dropStream m
  match s.nextIndex? with
  | none => (.ok .noMorePackages, s, m)
  | some index => s.seekPackage m index (s.packages.drop index)

/-- Move all records of the chosen package into a sink.  The package must be one
that has records. -/
def transferKeyValue [Zip.Codecs] {σ : Type} [RecordSink σ] (s : Session) (m : Medium)
    (sink : σ) : Except Misuse (Except RestoreError Nat) × Medium × σ :=
  match s.currentPackage? with
  | none => (.error .noPackageForRecords, m, sink)
  | some package =>
      if s.mode ≠ .keyValue then (.error (.notKeyValue package), m, sink)
      else
        match transferRecords s.layout package m sink with
        | (.ok records, m, sink) => (.ok (.ok records), m, sink)
        | (.error e, m, sink) => (.ok (.error (.transfer package e)), m, sink)

/-- Move the next chunk of the chosen package to an output.  The package must be
one with a full stream. -/
def streamChunk (s : Session) (m : Medium) (o : Output) :
    Except Misuse (Except RestoreError ChunkResult) × Session × Medium × Output :=
  if s.mode ≠ .fullStream then (.error .notFullStream, s, m, o)
  else
    match s.stream with
    | none => (.error .noStream, s, m, o)
    | some stream =>
        match stream.nextChunk s.layout m o with
        | (answer, stream, m, o) => (.ok answer, { s with stream := some stream }, m, o)

theorem progress_streamChunk {s s' : Session} {m m' : Medium} {o o' : Output} {n : Nat}
    (h : s.streamChunk m o = (.ok (.ok (.data n)), s', m', o')) :
    ∃ earlier later, s.stream = some earlier ∧ s'.stream = some later ∧ later.Progress earlier := by
  unfold streamChunk at h
  split at h
  · simp at h
  · split at h
    · simp at h
    · rename_i earlier hs
      split at h
      rename_i answer later m₁ o₁ hc
      simp only [Prod.mk.injEq, Except.ok.injEq] at h
      obtain ⟨rfl, rfl, -⟩ := h
      exact ⟨earlier, later, hs, rfl, FullStream.progress_nextChunk hc⟩

/-- End the stream of the chosen package, if it has one. -/
def abort (s : Session) (m : Medium) : Session × Medium :=
  match s.stream with
  | none => (s, m)
  | some stream =>
      let (stream, m) := stream.abort m
      ({ s with stream := some stream }, m)

/-- End the session, and give back what it holds. -/
def finish (s : Session) (m : Medium) : Medium := (s.abort m).2

end Session

end BackupRestore
