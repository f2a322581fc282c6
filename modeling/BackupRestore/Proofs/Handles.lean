/-
Module: BackupRestore.Proofs.Handles
Purpose: How many handles are open after each call of a run of a transport.
Main exports: Trouble, FullStream.step_cases, FullStream.leadsTo_nextChunk, Session.Settled,
  Transport.Event, Transport.Moment, Transport.run, Transport.sound_perform,
  Transport.run_accounts_for_every_handle
-/
import BackupRestore.Proofs.Cursor
import BackupRestore.Proofs.Payloads
import BackupRestore.Transport

namespace BackupRestore

/-!
The handles that a transport holds are those of its session's stream, and that is at most
one.  The account is kept against the handles that others hold: a stream that is open adds
one to them, whichever call opened it, and every way out of a stream gives that one back.
Lookups and transfers give back what they open before they return.

A session never holds an open stream while its mode says anything else (`Session.Settled`).
That is why a call that is refused for the mode finds no handle open.
-/

/-- How the opens and reads to come are answered. -/
structure Trouble where
  delivery : Delivery := {}
  refusal : Option IoError := none
  openFates : List (Option IoError) := []
  refusedNext : Option (Nat × IoError) := none

/-- The medium with other answers to its coming opens and reads. -/
def Medium.withTrouble (m : Medium) (t : Trouble) : Medium :=
  { m with
    delivery := t.delivery
    refusal := t.refusal
    openFates := t.openFates
    refusedNext := t.refusedNext }

/-- Besides those that `others` hold, one handle is open if `held` says so, and none otherwise. -/
def Medium.Accounts (m : Medium) (others : Nat) (held : Bool) : Prop :=
  m.live = others + held.toNat

theorem Medium.Accounts.of_held {m : Medium} {others : Nat} {held : Bool}
    (account : m.Accounts others held) (opened : held = true) : m.live = others + 1 := by
  rw [opened] at account
  exact account

theorem Medium.Accounts.of_free {m : Medium} {others : Nat} {held : Bool}
    (account : m.Accounts others held) (closed : held = false) : m.live = others := by
  rw [closed] at account
  exact account

/-! ### Streams -/

namespace FullStream

variable {others : Nat} {m m' : Medium} {s s' : FullStream} {o o' : Output}

/-- A step that moves data keeps the handle.  Every other step gives it back and ends the
stream. -/
theorem step_cases (s : FullStream) (m : Medium) (cursor : Cursor) (o : Output) :
    (∃ (cursor' : Cursor) (bytes : List UInt8) (m' : Medium) (o' : Output),
      bytes ≠ [] ∧ m.ReadsTo m' ∧
      s.step m cursor o = (.ok (.data bytes.length),
        { s with phase := .streaming cursor', streamed := s.streamed + bytes.length }, m', o')) ∨
    (∃ answer reason m' o', (∀ n, answer ≠ .ok (.data n)) ∧ m.GivesBack m' ∧
      s.step m cursor o = (answer, s.close reason, m', o')) := by
  have reads := cursor.reads_readChunk m s.chunkSize
  unfold step
  split
  · rename_i eq
    rw [eq] at reads
    exact Or.inr ⟨_, _, _, _, by simp, reads.givesBack, rfl⟩
  · rename_i bytes cursor' m₁ eq
    rw [eq] at reads
    split
    · split
      · exact Or.inr ⟨_, _, _, _, by simp, reads.givesBack, rfl⟩
      · exact Or.inr ⟨_, _, _, _, by simp, reads.givesBack, rfl⟩
    · rename_i some_bytes
      split
      · exact Or.inr ⟨_, _, _, _, by simp, reads.givesBack, rfl⟩
      · exact Or.inl ⟨cursor', bytes, m₁, _, by simpa using some_bytes, reads, rfl⟩

theorem isOpen_close (s : FullStream) (reason : CloseReason) : (s.close reason).isOpen = false :=
  rfl

theorem isOpen_of_streaming {cursor : Cursor} (phase : s.phase = .streaming cursor) :
    s.isOpen = true := by
  rw [isOpen, phase]

theorem isOpen_of_notStarted (phase : s.phase = .notStarted) : s.isOpen = false := by
  rw [isOpen, phase]

theorem isOpen_of_closed {reason : CloseReason} (phase : s.phase = .closed reason) :
    s.isOpen = false := by
  rw [isOpen, phase]

/-- A step through an open handle leaves it open exactly if it moves data. -/
theorem accounts_step {cursor : Cursor} {answer : Except RestoreError ChunkResult}
    (opened : m.live = others + 1) (stepped : s.step m cursor o = (answer, s', m', o')) :
    m'.Accounts others s'.isOpen ∧ (s'.isOpen = true → ∃ n, answer = .ok (.data n)) := by
  rcases s.step_cases m cursor o with
    ⟨cursor', bytes, m₁, o₁, -, reads, eq⟩ | ⟨answer₁, reason, m₁, o₁, -, back, eq⟩
  · rw [stepped] at eq
    simp only [Prod.mk.injEq] at eq
    obtain ⟨rfl, rfl, rfl, rfl⟩ := eq
    constructor
    · rw [Medium.Accounts, reads.live, opened]
      rfl
    · intro _
      exact ⟨_, rfl⟩
  · rw [stepped] at eq
    simp only [Prod.mk.injEq] at eq
    obtain ⟨rfl, rfl, rfl, rfl⟩ := eq
    constructor
    · rw [Medium.Accounts, back.live, opened, isOpen_close]
      rfl
    · intro held
      cases held

/-- A chunk leaves the handle open exactly if it is a chunk of data. -/
theorem accounts_nextChunk {layout : Layout} {answer : Except RestoreError ChunkResult}
    (before : m.Accounts others s.isOpen)
    (pulled : s.nextChunk layout m o = (answer, s', m', o')) :
    m'.Accounts others s'.isOpen ∧ (s'.isOpen = true → ∃ n, answer = .ok (.data n)) := by
  unfold nextChunk at pulled
  cases phase : s.phase with
  | streaming cursor =>
      simp only [phase] at pulled
      exact accounts_step (before.of_held (isOpen_of_streaming phase)) pulled
  | notStarted =>
      have unopened := before.of_free (isOpen_of_notStarted phase)
      simp only [phase] at pulled
      rcases s.openCursor_cases layout m with
        ⟨e, m₁, eq, -, live⟩ | ⟨cursor, m₁, eq, -, live⟩
      · rw [eq] at pulled
        simp only [Prod.mk.injEq] at pulled
        obtain ⟨rfl, rfl, rfl, rfl⟩ := pulled
        constructor
        · exact live.trans unopened
        · intro held
          cases held
      · rw [eq] at pulled
        rw [unopened] at live
        exact accounts_step live pulled
  | closed reason =>
      -- A stream that has ended gives an answer and touches nothing.
      have unchanged : s' = s ∧ m' = m := by
        cases reason <;> simp only [phase, Prod.mk.injEq] at pulled <;>
          exact ⟨pulled.2.1.symm, pulled.2.2.1.symm⟩
      obtain ⟨rfl, rfl⟩ := unchanged
      refine ⟨before, ?_⟩
      intro held
      rw [isOpen_of_closed phase] at held
      cases held

/-- A stream that is ended from outside gives its handle back. -/
theorem accounts_abort (before : m.Accounts others s.isOpen) :
    (s.abort m).2.live = others ∧ (s.abort m).1.isOpen = false := by
  unfold abort
  cases phase : s.phase with
  | notStarted => exact ⟨before.of_free (isOpen_of_notStarted phase), rfl⟩
  | streaming cursor =>
      refine ⟨?_, rfl⟩
      rw [Medium.release_live, before.of_held (isOpen_of_streaming phase)]
      rfl
  | closed reason => exact ⟨before.of_free (isOpen_of_closed phase), isOpen_of_closed phase⟩

theorem leadsTo_step (s : FullStream) (m : Medium) (cursor : Cursor) (o : Output) :
    m.LeadsTo (s.step m cursor o).2.2.1 := by
  rcases s.step_cases m cursor o with
    ⟨cursor', bytes, m₁, o₁, -, reads, eq⟩ | ⟨answer, reason, m₁, o₁, -, back, eq⟩
  · rw [eq]
    exact reads.leadsTo
  · rw [eq]
    exact back.leadsTo

theorem leadsTo_nextChunk (s : FullStream) (layout : Layout) (m : Medium)
    (o : Output) : m.LeadsTo (s.nextChunk layout m o).2.2.1 := by
  unfold nextChunk
  cases s.phase with
  | streaming cursor => exact s.leadsTo_step m cursor o
  | notStarted =>
      rcases s.openCursor_cases layout m with
        ⟨e, m₁, eq, leads, -⟩ | ⟨cursor, m₁, eq, leads, -⟩
      · simp only [eq]
        exact leads
      · simp only [eq]
        exact leads.trans (s.leadsTo_step m₁ cursor o)
  | closed reason => cases reason <;> exact .refl m

theorem leadsTo_abort (s : FullStream) (m : Medium) : m.LeadsTo (s.abort m).2 := by
  unfold abort
  cases s.phase with
  | notStarted => exact .refl m
  | streaming cursor => exact (Medium.LeadsTo.refl m).release
  | closed reason => exact .refl m

end FullStream

/-! ### Transfers of records -/

section Transfer

variable [Zip.Codecs] {σ : Type} [RecordSink σ]

theorem reads_transferRecord (a : Archive) (m : Medium) (sink : σ) (found : Located) :
    m.ReadsTo (transferRecord a m sink found).2.1 := by
  unfold transferRecord
  split
  · exact .refl m
  · have reads := a.reads_readEntry m found.index
    split
    · rename_i eq
      rwa [eq] at reads
    · rename_i eq
      rw [eq] at reads
      split
      · exact reads
      · split <;> exact reads

theorem reads_transferFrom (a : Archive) (pattern : Pattern) (count index : Nat) (m : Medium)
    (sink : σ) (written : Nat) :
    m.ReadsTo (transferFrom a pattern count index m sink written).2.1 := by
  induction count generalizing index m sink written with
  | zero => exact .refl m
  | succ count ih =>
      unfold transferFrom
      split
      · exact .refl m
      · rename_i e _
        have visited := a.reads_visit m e
        split
        · rename_i eq
          rwa [eq] at visited
        · rename_i m₁ eq
          rw [eq] at visited
          split
          · have moved := reads_transferRecord a m₁ sink { index, name := e.name }
            split
            · rename_i eq₁
              rw [eq₁] at moved
              exact visited.trans moved
            · rename_i m₂ sink₂ eq₁
              rw [eq₁] at moved
              exact (visited.trans moved).trans (ih (index + 1) m₂ sink₂ (written + 1))
          · exact visited.trans (ih (index + 1) m₁ sink written)

/-- A transfer gives back the handle that it opens, however it ends. -/
theorem live_transferRecords (layout : Layout) (package : String) (m : Medium) (sink : σ) :
    (transferRecords layout package m sink).2.1.live = m.live := by
  unfold transferRecords
  rcases Archive.openOn_cases m with ⟨e, m₁, opened, -, live⟩ | ⟨a, m₁, opened, -, live, -⟩
  · rw [opened]
    exact live
  · have reads := reads_transferFrom a (.under (layout.recordsOf package)) a.size 0 m₁ sink 0
    simp only [opened, Medium.release_live, reads.live, live]
    rfl

end Transfer

/-! ### Sessions -/

namespace Session

variable {others : Nat} {s : Session} {m : Medium}

/-- A stream holds a handle only while the chosen package is one with a full stream. -/
def Settled (s : Session) : Prop := s.hasOpenStream = true → s.mode = .fullStream

theorem hasOpenStream_of_stream_none (none_left : s.stream = none) : s.hasOpenStream = false := by
  simp [hasOpenStream, none_left]

theorem hasOpenStream_of_stream {stream : FullStream} (held : s.stream = some stream) :
    s.hasOpenStream = stream.isOpen := by
  simp [hasOpenStream, held]

theorem settled_of_closed (closed : s.hasOpenStream = false) : s.Settled := by
  intro held
  rw [closed] at held
  cases held

/-- The stream of the package before is given up with its handle. -/
theorem accounts_dropStream (before : m.Accounts others s.hasOpenStream) :
    (s.dropStream m).2.live = others ∧ (s.dropStream m).1.stream = none := by
  unfold dropStream
  cases held : s.stream with
  | none =>
      rw [hasOpenStream_of_stream_none held] at before
      exact ⟨before, held⟩
  | some stream =>
      rw [hasOpenStream_of_stream held] at before
      exact ⟨(FullStream.accounts_abort before).1, rfl⟩

/-- Choosing a package sets its place and mode, and a stream that has not begun if one can
be prepared. -/
theorem choose_cases (s : Session) (index : Nat) (package : String) (mode : RestoreMode) :
    ∃ answer stream,
      s.choose index package mode = (answer, { s with place := .at index, mode, stream }) ∧
        (stream = s.stream ∨ stream = some { package, chunkSize := s.chunkSize }) := by
  unfold choose
  by_cases full : mode = .fullStream
  · simp only [full, if_true, FullStream.prepare]
    by_cases small : s.chunkSize < FullStream.chunkLimit
    · simp only [small, if_true]
      exact ⟨_, _, rfl, Or.inr rfl⟩
    · simp only [small, if_false]
      exact ⟨_, _, rfl, Or.inl rfl⟩
  · simp only [full, if_false]
    exact ⟨_, _, rfl, Or.inl rfl⟩

/-- A package that has just been chosen has no open stream yet. -/
theorem closed_choose (index : Nat) (package : String) (mode : RestoreMode)
    (none_left : s.stream = none) : (s.choose index package mode).2.hasOpenStream = false := by
  obtain ⟨answer, stream, chosen, kept | fresh⟩ := s.choose_cases index package mode
  · rw [chosen]
    exact hasOpenStream_of_stream_none (kept.trans none_left)
  · rw [chosen, fresh]
    rfl

/-- Looking for the next package opens no handle that it does not give back. -/
theorem live_seekPackage (index : Nat) (remaining : List String) (none_left : s.stream = none) :
    (s.seekPackage m index remaining).2.2.live = m.live ∧
      (s.seekPackage m index remaining).2.1.hasOpenStream = false := by
  induction remaining generalizing s m index with
  | nil => exact ⟨rfl, hasOpenStream_of_stream_none none_left⟩
  | cons package rest ih =>
      have live := (leads_classify s.layout package m).2
      unfold seekPackage
      split
      · rename_i m₁ eq
        rw [eq] at live
        have later := @ih { s with place := .at index } m₁ (index + 1) none_left
        exact ⟨later.1.trans live, later.2⟩
      · rename_i m₁ eq
        rw [eq] at live
        have later := @ih { s with place := .at index } m₁ (index + 1) none_left
        exact ⟨later.1.trans live, later.2⟩
      · rename_i mode m₁ _ eq
        rw [eq] at live
        exact ⟨live, closed_choose index package mode none_left⟩

theorem accounts_nextPackage (before : m.Accounts others s.hasOpenStream) :
    (s.nextPackage m).2.2.live = others ∧ (s.nextPackage m).2.1.hasOpenStream = false := by
  obtain ⟨live, none_left⟩ := accounts_dropStream before
  unfold nextPackage
  generalize s.dropStream m = dropped at live none_left
  obtain ⟨s₁, m₁⟩ := dropped
  simp only at live none_left ⊢
  split
  · exact ⟨live, hasOpenStream_of_stream_none none_left⟩
  · rename_i index _
    have sought := live_seekPackage (m := m₁) index (s₁.packages.drop index) none_left
    exact ⟨sought.1.trans live, sought.2⟩

theorem accounts_abort (before : m.Accounts others s.hasOpenStream) :
    (s.abort m).2.live = others ∧ (s.abort m).1.hasOpenStream = false := by
  unfold abort
  cases held : s.stream with
  | none =>
      rw [hasOpenStream_of_stream_none held] at before
      exact ⟨before, hasOpenStream_of_stream_none held⟩
  | some stream =>
      rw [hasOpenStream_of_stream held] at before
      exact FullStream.accounts_abort before

/-- A chunk leaves the stream open only if it is a chunk of data. -/
theorem accounts_streamChunk {s' : Session} {m' : Medium} {o o' : Output}
    {answer : Except Misuse (Except RestoreError ChunkResult)}
    (settled : s.Settled) (before : m.Accounts others s.hasOpenStream)
    (pulled : s.streamChunk m o = (answer, s', m', o')) :
    m'.Accounts others s'.hasOpenStream ∧ s'.Settled ∧
      (s'.hasOpenStream = true → ∃ n, answer = .ok (.ok (.data n))) := by
  unfold streamChunk at pulled
  by_cases chosen : s.mode = .fullStream
  · rw [if_neg (not_not_intro chosen)] at pulled
    cases held : s.stream with
    | none =>
        simp only [held, Prod.mk.injEq] at pulled
        obtain ⟨rfl, rfl, rfl, rfl⟩ := pulled
        refine ⟨before, settled, ?_⟩
        intro opened
        rw [hasOpenStream_of_stream_none held] at opened
        cases opened
    | some stream =>
        rw [hasOpenStream_of_stream held] at before
        simp only [held] at pulled
        generalize chunk : stream.nextChunk s.layout m o = result at pulled
        obtain ⟨answer₁, stream₁, m₁, o₁⟩ := result
        simp only [Prod.mk.injEq] at pulled
        obtain ⟨rfl, rfl, rfl, rfl⟩ := pulled
        obtain ⟨after, moved⟩ := FullStream.accounts_nextChunk before chunk
        refine ⟨after, fun _ => chosen, ?_⟩
        intro opened
        obtain ⟨n, rfl⟩ := moved opened
        exact ⟨n, rfl⟩
  · rw [if_pos chosen] at pulled
    simp only [Prod.mk.injEq] at pulled
    obtain ⟨rfl, rfl, rfl, rfl⟩ := pulled
    refine ⟨before, settled, ?_⟩
    intro opened
    exact absurd (settled opened) chosen

/-- Records are moved with no stream open, and every handle is given back. -/
theorem live_transferKeyValue [Zip.Codecs] {σ : Type} [RecordSink σ] (s : Session) (m : Medium)
    (sink : σ) : (s.transferKeyValue m sink).2.1.live = m.live := by
  unfold transferKeyValue
  cases s.currentPackage? with
  | none => rfl
  | some package =>
      simp only
      split
      · rfl
      · have live := live_transferRecords s.layout package m sink
        split <;> rename_i eq <;> rwa [eq] at live

/-- Records are moved only where the chosen package has records. -/
theorem mode_of_transferKeyValue [Zip.Codecs] {σ : Type} [RecordSink σ] {sink sink' : σ}
    {m' : Medium} {answer : Except RestoreError Nat}
    (moved : s.transferKeyValue m sink = (.ok answer, m', sink')) : s.mode = .keyValue := by
  unfold transferKeyValue at moved
  by_cases chosen : s.mode = .keyValue
  · exact chosen
  · cases current : s.currentPackage? with
    | none =>
        rw [current] at moved
        cases moved
    | some package =>
        rw [current] at moved
        simp only [if_pos chosen] at moved
        cases moved

end Session

/-! ### Transports -/

namespace Transport

/-- What happens in a run: a call of the host, or a change in how the medium answers. -/
inductive Event : Type 1 where
  | start (token : Nat) (packages : List String)
  | nextPackage
  | transferKeyValue {σ : Type} [RecordSink σ] (sink : σ)
  | streamChunk (o : Output)
  | abort
  | finish
  | plan (trouble : Trouble)

/-- What the host is told. -/
inductive Answer where
  | status (status : Status)
  | package (answer : Except Misuse NextPackage)
  | records (answer : Except Misuse Status)
  | chunk (answer : Except Misuse (Except Status ChunkResult))
  | finished (answer : Except Misuse Unit)
  | nothing

/-- The call with this answer has ended whatever stream there was: every call has but a
chunk that moved data, and records that were refused out of sequence. -/
def Answer.isClosing : Answer → Bool
  | .status _ | .package _ | .finished _ | .records (.ok _) => true
  | .chunk (.ok (.ok (.data _))) => false
  | .chunk _ => true
  | .records (.error _) | .nothing => false

/-- The state after an event, and the answer to it. -/
structure Moment where
  answer : Answer
  transport : Transport
  medium : Medium

/-- A session's stream holds a handle only while its mode is that of a full stream. -/
def Settled (t : Transport) : Prop := ∀ session ∈ t.session, session.Settled

/-- The account is right, and the call was not one that leaves a stream open against its
answer. -/
structure Moment.Sound (others : Nat) (moment : Moment) : Prop where
  accounts : moment.medium.Accounts others moment.transport.hasOpenStream
  settled : moment.transport.Settled
  closed : moment.answer.isClosing = true → moment.transport.hasOpenStream = false

variable {others : Nat} {t : Transport} {m : Medium}

theorem hasOpenStream_of_session_none (none_begun : t.session = none) :
    t.hasOpenStream = false := by
  simp [hasOpenStream, none_begun]

theorem hasOpenStream_of_session {session : Session} (begun : t.session = some session) :
    t.hasOpenStream = session.hasOpenStream := by
  simp [hasOpenStream, begun]

/-- A transport without a session holds no handle, whatever is asked of it. -/
theorem sound_of_session_none (answer : Answer) (before : m.Accounts others t.hasOpenStream)
    (none_begun : t.session = none) :
    ({ answer, transport := t, medium := m } : Moment).Sound others := by
  refine ⟨before, ?_, fun _ => hasOpenStream_of_session_none none_begun⟩
  intro session begun
  rw [none_begun] at begun
  cases begun

/-- A session that has closed its stream leaves the transport sound, whatever is answered. -/
theorem sound_of_closed (answer : Answer) {session : Session} (live : m.live = others)
    (closed : session.hasOpenStream = false) :
    ({ answer, transport := { t with session := some session }, medium := m } : Moment).Sound
      others := by
  have none_held : ({ t with session := some session } : Transport).hasOpenStream = false := closed
  refine ⟨?_, ?_, fun _ => none_held⟩
  · rw [Medium.Accounts, none_held]
    exact live
  · intro begun member
    cases member
    exact Session.settled_of_closed closed

/-- A transport that has just been made has no session. -/
theorem session_of_create {settings : Settings} (created : create settings = .ok t) :
    t = { settings } := by
  unfold create at created
  split at created
  · exact (Except.ok.inj created).symm
  · cases created

section Runs

variable [Zip.Codecs]

/-- Let one event happen. -/
def perform (t : Transport) (m : Medium) (event : Event) : Moment :=
  match event with
  | .start token packages =>
      match t.start m token packages with
      | (status, transport, medium) => { answer := .status status, transport, medium }
  | .nextPackage =>
      match t.nextPackage m with
      | (answer, transport, medium) => { answer := .package answer, transport, medium }
  | @Event.transferKeyValue _ _ sink =>
      match t.transferKeyValue m sink with
      | (answer, medium, _) => { answer := .records answer, transport := t, medium }
  | .streamChunk o =>
      match t.streamChunk m o with
      | (answer, transport, medium, _) => { answer := .chunk answer, transport, medium }
  | .abort =>
      match t.abort m with
      | (status, transport, medium) => { answer := .status status, transport, medium }
  | .finish =>
      match t.finish m with
      | (answer, transport, medium) => { answer := .finished answer, transport, medium }
  | .plan trouble => { answer := .nothing, transport := t, medium := m.withTrouble trouble }

/-- The moments of a run, one for each event. -/
def run (t : Transport) (m : Medium) : List Event → List Moment
  | [] => []
  | event :: events =>
      let moment := t.perform m event
      moment :: moment.transport.run moment.medium events

theorem sound_start (before : m.Accounts others t.hasOpenStream) (token : Nat)
    (packages : List String) : (t.perform m (.start token packages)).Sound others := by
  cases begun : t.session with
  | none =>
      rw [hasOpenStream_of_session_none begun] at before
      simp only [perform, start, begun]
      exact sound_of_closed _ before rfl
  | some session =>
      rw [hasOpenStream_of_session begun] at before
      simp only [perform, start, begun]
      exact sound_of_closed _ (Session.accounts_abort before).1 rfl

theorem sound_nextPackage (before : m.Accounts others t.hasOpenStream) :
    (t.perform m .nextPackage).Sound others := by
  cases begun : t.session with
  | none =>
      simp only [perform, nextPackage, begun]
      exact sound_of_session_none _ before begun
  | some session =>
      rw [hasOpenStream_of_session begun] at before
      obtain ⟨live, closed⟩ := Session.accounts_nextPackage before
      simp only [perform, nextPackage, begun]
      exact sound_of_closed _ live closed

theorem sound_abort (before : m.Accounts others t.hasOpenStream) :
    (t.perform m .abort).Sound others := by
  cases begun : t.session with
  | none =>
      simp only [perform, abort, begun]
      exact sound_of_session_none _ before begun
  | some session =>
      rw [hasOpenStream_of_session begun] at before
      obtain ⟨live, closed⟩ := Session.accounts_abort before
      simp only [perform, abort, begun]
      exact sound_of_closed _ live closed

theorem sound_finish (before : m.Accounts others t.hasOpenStream) :
    (t.perform m .finish).Sound others := by
  cases begun : t.session with
  | none =>
      simp only [perform, finish, begun]
      exact sound_of_session_none _ before begun
  | some session =>
      rw [hasOpenStream_of_session begun] at before
      simp only [perform, finish, begun]
      apply sound_of_session_none
      · exact (Session.accounts_abort before).1
      · rfl

/-- Records leave the account as it is.  Where they have been moved, no stream was open. -/
theorem sound_transferKeyValue {σ : Type} [RecordSink σ] (settled : t.Settled)
    (before : m.Accounts others t.hasOpenStream) (sink : σ) :
    (t.perform m (.transferKeyValue sink)).Sound others := by
  cases begun : t.session with
  | none =>
      simp only [perform, transferKeyValue, begun]
      exact sound_of_session_none _ before begun
  | some session =>
      have live := session.live_transferKeyValue m sink
      have open_only_streams := settled session begun
      simp only [perform, transferKeyValue, begun]
      generalize moved : session.transferKeyValue m sink = result at live
      obtain ⟨answer, m₁, sink₁⟩ := result
      have account : m₁.Accounts others t.hasOpenStream := live.trans before
      cases answer with
      | error misuse =>
          refine ⟨account, settled, ?_⟩
          intro closing
          cases closing
      | ok outcome =>
          have closed : t.hasOpenStream = false := by
            have mode := Session.mode_of_transferKeyValue moved
            cases held : session.hasOpenStream with
            | false => rw [hasOpenStream_of_session begun, held]
            | true =>
                have full := open_only_streams held
                rw [mode] at full
                cases full
          cases outcome with
          | error e => exact ⟨account, settled, fun _ => closed⟩
          | ok records => exact ⟨account, settled, fun _ => closed⟩

theorem sound_streamChunk (settled : t.Settled) (before : m.Accounts others t.hasOpenStream)
    (o : Output) : (t.perform m (.streamChunk o)).Sound others := by
  cases begun : t.session with
  | none =>
      simp only [perform, streamChunk, begun]
      exact sound_of_session_none _ before begun
  | some session =>
      rw [hasOpenStream_of_session begun] at before
      simp only [perform, streamChunk, begun]
      generalize pulled : session.streamChunk m o = result
      obtain ⟨answer, session₁, m₁, o₁⟩ := result
      obtain ⟨after, settled₁, moved⟩ :=
        Session.accounts_streamChunk (settled session begun) before pulled
      have all_settled : ({ t with session := some session₁ } : Transport).Settled := by
        intro session member
        cases member
        exact settled₁
      -- Only a chunk of data can have left the stream open.
      have closed_unless_data : (∀ n, answer ≠ .ok (.ok (.data n))) →
          session₁.hasOpenStream = false := by
        intro other
        cases held : session₁.hasOpenStream with
        | false => rfl
        | true =>
            obtain ⟨n, eq⟩ := moved held
            exact absurd eq (other n)
      rcases answer with misuse | e | n | -
      · exact ⟨after, all_settled, fun _ => closed_unless_data (by simp)⟩
      · exact ⟨after, all_settled, fun _ => closed_unless_data (by simp)⟩
      · refine ⟨after, all_settled, ?_⟩
        intro closing
        cases closing
      · exact ⟨after, all_settled, fun _ => closed_unless_data (by simp)⟩

/-- Whatever happens next, the account stays right. -/
theorem sound_perform (settled : t.Settled) (before : m.Accounts others t.hasOpenStream)
    (event : Event) : (t.perform m event).Sound others := by
  cases event with
  | start token packages => exact sound_start before token packages
  | nextPackage => exact sound_nextPackage before
  | transferKeyValue sink => exact sound_transferKeyValue settled before sink
  | streamChunk o => exact sound_streamChunk settled before o
  | abort => exact sound_abort before
  | finish => exact sound_finish before
  | plan trouble =>
      refine ⟨before, settled, ?_⟩
      intro closing
      cases closing

/-- The account stays right through every run. -/
theorem sound_run (settled : t.Settled) (before : m.Accounts others t.hasOpenStream)
    (events : List Event) : ∀ moment ∈ t.run m events, moment.Sound others := by
  induction events generalizing t m with
  | nil =>
      intro moment member
      cases member
  | cons event events ih =>
      have sound := sound_perform settled before event
      intro moment member
      rcases List.mem_cons.1 member with rfl | later
      · exact sound
      · exact ih sound.settled sound.accounts moment later

/-- After each call of every run, one handle is open for the stream of the session if that is
open, and none otherwise; and none is open after a call that closes. -/
theorem run_accounts_for_every_handle {settings : Settings} (created : create settings = .ok t)
    (m : Medium) (events : List Event) :
    ∀ moment ∈ t.run m events,
      moment.medium.live = m.live + (if moment.transport.hasOpenStream then 1 else 0) ∧
      (moment.answer.isClosing = true → moment.medium.live = m.live) := by
  have fresh := session_of_create created
  have settled : t.Settled := by
    intro session begun
    rw [fresh] at begun
    cases begun
  have before : m.Accounts m.live t.hasOpenStream := by
    rw [fresh]
    rfl
  intro moment member
  have sound := sound_run settled before events moment member
  have account := sound.accounts
  constructor
  · rw [account]
    cases moment.transport.hasOpenStream <;> rfl
  · intro closing
    rw [account, sound.closed closing]
    rfl

end Runs

theorem run_accounts_for_every_handle_by_default :
    create {} = .ok { settings := {} } ∧
    ∀ moment ∈ run { settings := {} } (Medium.ofContent Sample.content)
        [.start 1 ["p", "q"], .nextPackage, .streamChunk .willing,
          .plan { refusal := some .cutShort }, .nextPackage, .abort, .finish],
      moment.medium.live = 0 + (if moment.transport.hasOpenStream then 1 else 0) ∧
      (moment.answer.isClosing = true → moment.medium.live = 0) := by
  have created : create {} = .ok { settings := {} } := rfl
  exact ⟨created, run_accounts_for_every_handle created (.ofContent Sample.content) _⟩

end Transport
end BackupRestore
