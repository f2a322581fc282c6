/-
Module: BackupRestore.Stream
Purpose: Moving a package's full stream to an output, one chunk per call.
Main exports: FullStream, FullStream.prepare, FullStream.nextChunk, FullStream.abort,
  FullStream.chunkLimit
-/
import BackupRestore.Layout
import BackupRestore.Output
import BackupRestore.Payload
import BackupRestore.Protocol

namespace BackupRestore

/-!
A stream opens the archive with its first chunk, and holds the handle from then
on until it ends.  It ends once, for one reason, and keeps to that: no later call
opens or reads the archive or touches an output.
-/

/-- What a stream is doing. -/
inductive StreamPhase where
  /-- Nothing has been opened. -/
  | notStarted
  /-- A handle is held. -/
  | streaming (cursor : Cursor)
  /-- The stream has ended. -/
  | closed (reason : CloseReason)

/-- The transfer of one package's full stream. -/
structure FullStream where
  package : String
  chunkSize : Nat
  phase : StreamPhase := .notStarted
  /-- How many bytes have been delivered. -/
  streamed : Nat := 0

namespace FullStream

/-- Chunks are smaller than this: no buffer has as many bytes. -/
def chunkLimit : Nat := 0x8000000000000000

/-- A transfer that has not begun.  There is none with chunks that no buffer can hold. -/
def prepare (package : String) (chunkSize : Nat) : Except Misuse FullStream :=
  if chunkSize < chunkLimit then .ok { package, chunkSize } else .error .chunkTooLarge

/-- A handle is held. -/
def isOpen (s : FullStream) : Bool :=
  match s.phase with
  | .streaming _ => true
  | _ => false

/-- Why the stream has ended, if it has. -/
def closeReason? (s : FullStream) : Option CloseReason :=
  match s.phase with
  | .closed reason => some reason
  | _ => none

/-- The stream, ended. -/
def close (s : FullStream) (reason : CloseReason) : FullStream :=
  { s with phase := .closed reason }

/-- The refusal of this package. -/
def rejection (s : FullStream) : RestoreError := .packageRejected s.package

/-- A failure while this package's data is moved. -/
def failure (s : FullStream) (cause : IoError) : RestoreError :=
  .transfer s.package (.io cause)

/-- Open the archive and find the package's stream. -/
def openCursor (s : FullStream) (layout : Layout) (m : Medium) :
    Except RestoreError Cursor × Medium :=
  match locate m (.exactly (layout.streamPath s.package)) with
  | (.error e, m) => (.error e, m)
  | (.ok none, m) => (.error s.rejection, m)
  | (.ok (some (a, found)), m) => a.intoCursor m found

/-- What is reported when the stream cannot be opened: a refusal as it is, and
anything else as a refusal of the package. -/
def openingError (s : FullStream) (e : RestoreError) : RestoreError :=
  if e.isRejection then e else s.rejection

/-- Move one chunk from an open cursor to an output. -/
def step (s : FullStream) (m : Medium) (cursor : Cursor) (o : Output) :
    Except RestoreError ChunkResult × FullStream × Medium × Output :=
  match cursor.readChunk m s.chunkSize with
  | (.error cause, _, m) => (.error (s.failure cause), s.close .failed, m.release, o)
  | (.ok bytes, cursor, m) =>
      if bytes.isEmpty then
        match o.flush with
        | (.error cause, o) => (.error (s.failure cause), s.close .failed, m.release, o)
        | (.ok _, o) => (.ok .noMoreData, s.close .exhausted, m.release, o)
      else
        match o.writeAll bytes with
        | (.error cause, o) => (.error (s.failure cause), s.close .failed, m.release, o)
        | (.ok _, o) =>
            (.ok (.data bytes.length),
              { s with phase := .streaming cursor, streamed := s.streamed + bytes.length }, m, o)

/-- Move at most one chunk from the archive to an output.  The output is flushed
when the stream comes to its end. -/
def nextChunk (s : FullStream) (layout : Layout) (m : Medium) (o : Output) :
    Except RestoreError ChunkResult × FullStream × Medium × Output :=
  match s.phase with
  | .streaming cursor => s.step m cursor o
  | .notStarted =>
      match s.openCursor layout m with
      | (.error e, m) => (.error (s.openingError e), s.close .rejected, m, o)
      | (.ok cursor, m) => s.step m cursor o
  | .closed .exhausted => (.ok .noMoreData, s, m, o)
  | .closed .rejected => (.error s.rejection, s, m, o)
  | .closed reason => (.error (s.failure (.streamClosed reason)), s, m, o)

/-- How often the archive can still be opened. -/
def openings (s : FullStream) : Nat :=
  match s.phase with
  | .notStarted => 1
  | .streaming _ | .closed _ => 0

/-- A bound on the bytes that can still come, once the archive is open. -/
def potential (s : FullStream) : Nat :=
  match s.phase with
  | .streaming cursor => cursor.potential
  | .notStarted | .closed _ => 0

/-- The later stream can give less than the earlier one. -/
def Progress (later earlier : FullStream) : Prop :=
  Prod.Lex (· < ·) (· < ·) (later.openings, later.potential) (earlier.openings, earlier.potential)

theorem phase_step {s s' : FullStream} {m m' : Medium} {cursor : Cursor} {o o' : Output}
    {n : Nat} (h : s.step m cursor o = (.ok (.data n), s', m', o')) :
    ∃ cursor', s'.phase = .streaming cursor' ∧ cursor'.potential < cursor.potential := by
  unfold step at h
  split at h
  · simp at h
  · rename_i bytes cursor' m₁ hr
    split at h
    · split at h <;> simp at h
    · rename_i hb
      split at h
      · simp at h
      · simp only [Prod.mk.injEq] at h
        obtain ⟨-, rfl, -⟩ := h
        exact ⟨cursor', rfl, Cursor.potential_readChunk hr (by simpa using hb)⟩

/-- Every chunk uses up what a stream can give. -/
theorem progress_nextChunk {s s' : FullStream} {layout : Layout} {m m' : Medium} {o o' : Output}
    {n : Nat} (h : s.nextChunk layout m o = (.ok (.data n), s', m', o')) : s'.Progress s := by
  unfold nextChunk at h
  split at h
  · rename_i cursor hp
    obtain ⟨cursor', hp', hlt⟩ := phase_step h
    simp only [Progress, openings, potential, hp, hp']
    exact Prod.Lex.right _ hlt
  · rename_i hp
    split at h
    · simp at h
    · obtain ⟨cursor', hp', -⟩ := phase_step h
      simp only [Progress, openings, potential, hp, hp']
      exact Prod.Lex.left _ _ (by decide)
  · simp at h
  · simp at h
  · simp at h

/-- End the stream, unless it has ended. -/
def abort (s : FullStream) (m : Medium) : FullStream × Medium :=
  match s.phase with
  | .notStarted => (s.close .aborted, m)
  | .streaming _ => (s.close .aborted, m.release)
  | .closed _ => (s, m)

end FullStream

end BackupRestore
