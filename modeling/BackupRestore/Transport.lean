/-
Module: BackupRestore.Transport
Purpose: The restore side of a backup transport, as its host calls it.
Main exports: Transport, Transport.create, Transport.start, Transport.nextPackage,
  Transport.transferKeyValue, Transport.streamChunk, Transport.streamAll, Transport.abort,
  Transport.finish
-/
import BackupRestore.Session

namespace BackupRestore

/-!
A transport serves one archive with one set of settings.  It has at most one
session.  An operation that needs a session and finds none is a misuse, and
changes nothing.
-/

/-- The restore side of a transport. -/
structure Transport where
  settings : Settings
  session : Option Session := none

namespace Transport

/-- A transport with settings that have been checked. -/
def create (settings : Settings) : Except RestoreError Transport :=
  match settings.validate with
  | .ok _ => .ok { settings }
  | .error e => .error e

/-- The sets that the archive offers. -/
def restoreSets (t : Transport) : List RestoreSet := [t.settings.restoreSet]

/-- The token of the set in use. -/
def currentToken (t : Transport) : Nat := t.settings.restoreSet.token

/-- A session has a stream that holds a handle. -/
def hasOpenStream (t : Transport) : Bool := t.session.any Session.hasOpenStream

/-- Begin a session.  A session that is under way is ended first. -/
def start (t : Transport) (m : Medium) (token : Nat) (packages : List String) :
    Status × Transport × Medium :=
  let m :=
    match t.session with
    | none => m
    | some session => session.finish m
  (.ok, { t with session := some (.start t.settings token packages) }, m)

/-- Go on to the next package that has data. -/
def nextPackage (t : Transport) (m : Medium) :
    Except Misuse NextPackage × Transport × Medium :=
  match t.session with
  | none => (.error (.notStarted "next_package"), t, m)
  | some session =>
      match session.nextPackage m with
      | (answer, session, m) => (answer, { t with session := some session }, m)

/-- Move all records of the chosen package into a sink. -/
def transferKeyValue [Zip.Codecs] {σ : Type} [RecordSink σ] (t : Transport) (m : Medium)
    (sink : σ) : Except Misuse Status × Medium × σ :=
  match t.session with
  | none => (.error (.notStarted "transfer_key_value"), m, sink)
  | some session =>
      match session.transferKeyValue m sink with
      | (.error misuse, m, sink) => (.error misuse, m, sink)
      | (.ok (.ok _), m, sink) => (.ok .ok, m, sink)
      | (.ok (.error e), m, sink) => (.ok e.status, m, sink)

/-- Move the next chunk of the chosen package to an output. -/
def streamChunk (t : Transport) (m : Medium) (o : Output) :
    Except Misuse (Except Status ChunkResult) × Transport × Medium × Output :=
  match t.session with
  | none => (.error (.notStarted "stream_chunk"), t, m, o)
  | some session =>
      match session.streamChunk m o with
      | (.error misuse, session, m, o) =>
          (.error misuse, { t with session := some session }, m, o)
      | (.ok (.ok chunk), session, m, o) => (.ok (.ok chunk), { t with session := some session }, m, o)
      | (.ok (.error e), session, m, o) =>
          (.ok (.error e.status), { t with session := some session }, m, o)

/-- The stream under way. -/
def stream? (t : Transport) : Option FullStream := t.session.bind (·.stream)

theorem progress_streamChunk {t t' : Transport} {m m' : Medium} {o o' : Output} {n : Nat}
    (h : t.streamChunk m o = (.ok (.ok (.data n)), t', m', o')) :
    ∃ earlier later, t.stream? = some earlier ∧ t'.stream? = some later ∧
      later.Progress earlier := by
  unfold streamChunk at h
  split at h
  · simp at h
  · rename_i session hs
    split at h
    · simp at h
    · rename_i chunk session' m₁ o₁ hc
      simp only [Prod.mk.injEq, Except.ok.injEq] at h
      obtain ⟨rfl, rfl, -⟩ := h
      obtain ⟨earlier, later, h₁, h₂, h₃⟩ := Session.progress_streamChunk hc
      exact ⟨earlier, later, by simp [stream?, hs, h₁], by simp [stream?, h₂], h₃⟩
    · simp at h

/-- Move chunks to an output until no more come, when `moved` bytes have been moved
before.  Gives how many have been moved in all. -/
def streamMore (t : Transport) (m : Medium) (o : Output) (moved : Nat) :
    Except Misuse (Except Status Nat) × Transport × Medium × Output :=
  match h : t.streamChunk m o with
  | (.error misuse, t, m, o) => (.error misuse, t, m, o)
  | (.ok (.error status), t, m, o) => (.ok (.error status), t, m, o)
  | (.ok (.ok .noMoreData), t, m, o) => (.ok (.ok moved), t, m, o)
  | (.ok (.ok (.data n)), next, m, o) =>
      have := progress_streamChunk h
      next.streamMore m o (moved + n)
termination_by ((t.stream?.map FullStream.openings).getD 0, (t.stream?.map FullStream.potential).getD 0)
decreasing_by
  obtain ⟨earlier, later, h₁, h₂, h₃⟩ := this
  simp only [h₁, h₂, Option.map_some, Option.getD_some]
  exact h₃

/-- Move chunks to an output until no more come.  Gives how many bytes were moved. -/
def streamAll (t : Transport) (m : Medium) (o : Output) :
    Except Misuse (Except Status Nat) × Transport × Medium × Output :=
  t.streamMore m o 0

/-- Give up the stream under way, if there is one. -/
def abort (t : Transport) (m : Medium) : Status × Transport × Medium :=
  match t.session with
  | none => (.ok, t, m)
  | some session =>
      match session.abort m with
      | (session, m) => (.ok, { t with session := some session }, m)

/-- End the session, and give back what it holds. -/
def finish (t : Transport) (m : Medium) : Except Misuse Unit × Transport × Medium :=
  match t.session with
  | none => (.error (.notStarted "finish"), t, m)
  | some session => (.ok (), { t with session := none }, session.finish m)

end Transport

end BackupRestore
