/-
Module: BackupRestore.Proofs.Restart
Purpose: A call of `start` forgets everything that was done with a transport before it.
Main exports: Medium.HoldsSame, Transport.behind, Transport.behind_induction, Transport.Passage,
  Transport.Serves, Transport.serves_behind, Transport.start_eq, Transport.Sight, Transport.sights,
  Transport.sights_countMore, Transport.start_forgets_history
-/
import BackupRestore.Proofs.Opens
import BackupRestore.Proofs.Packages

namespace BackupRestore

/-!
A transport is used, for whatever calls, and then a session is started on it.  Another
transport has just been made with the same settings over the same archive.  From there on the
host sees the same of both.

Three things could carry something over.  The transport keeps nothing but its settings, since
the new session replaces the old one (`start_eq`).  The medium keeps the archive, and by the
account of the handles (`sound_run`) the old session has given back what it held.  What is left
is how often the archive has been opened, and nothing shows that (`perform_countMore`).
-/

/-- The media hold one archive. -/
structure Medium.HoldsSame (m m' : Medium) : Prop where
  content : m'.content = m.content
  reach : m'.reach = m.reach

namespace Medium

variable {m m₁ m' : Medium}

theorem HoldsSame.refl (m : Medium) : m.HoldsSame m := ⟨rfl, rfl⟩

theorem HoldsSame.trans (first : m.HoldsSame m₁) (second : m₁.HoldsSame m') : m.HoldsSame m' :=
  ⟨second.content.trans first.content, second.reach.trans first.reach⟩

theorem LeadsTo.holdsSame (leads : m.LeadsTo m') : m.HoldsSame m' := ⟨leads.content, leads.reach⟩

theorem holdsSame_withTrouble (m : Medium) (trouble : Trouble) :
    m.HoldsSame (m.withTrouble trouble) := ⟨rfl, rfl⟩

/-- Media that hold one archive, have as many handles open and answer alike differ in how often
they have been opened. -/
theorem HoldsSame.countMore (same : m.HoldsSame m') (live : m'.live = m.live)
    (trouble : Trouble) :
    m'.withTrouble trouble =
      ({ m.withTrouble trouble with opens := 0 } : Medium).countMore m'.opens := by
  simp only [withTrouble, Medium.countMore, same.content, same.reach, live, Nat.zero_add]

end Medium

namespace Transport

/-! ### One session for another -/

theorem finish_eq (s : Session) (m : Medium) :
    s.finish m = { m with live := (s.finish m).live } := by
  simp only [Session.finish, Session.abort]
  cases s.stream with
  | none => rfl
  | some stream =>
      simp only [FullStream.abort]
      cases stream.phase <;> rfl

theorem holdsSame_finish (s : Session) (m : Medium) : m.HoldsSame (s.finish m) := by
  simp only [Session.finish, Session.abort]
  cases s.stream with
  | none => exact .refl m
  | some stream => exact (stream.leadsTo_abort m).holdsSame

theorem withSession_self {t : Transport} {s : Session} (begun : t.session = some s) :
    { t with session := some s } = t := by
  rw [← begun]

section Runs

variable [Zip.Codecs]

/-! ### What is left behind any calls -/

/-- The transport and the medium behind some events. -/
def behind (t : Transport) (m : Medium) : List Event → Transport × Medium
  | [] => (t, m)
  | event :: events =>
      let moment := t.perform m event
      moment.transport.behind moment.medium events

/-- What every event keeps is kept behind any events. -/
theorem behind_induction (Kept : Transport → Medium → Prop)
    (step : ∀ t m event, Kept t m →
      Kept (t.perform m event).transport (t.perform m event).medium)
    {t : Transport} {m : Medium} (begins : Kept t m) (events : List Event) :
    Kept (t.behind m events).1 (t.behind m events).2 := by
  induction events generalizing t m with
  | nil => exact begins
  | cons event events ih => exact ih (step t m event begins)

/-- What an event can do to a transport and its medium. -/
inductive Passage (t : Transport) (m : Medium) : Transport → Medium → Prop where
  /-- There is no session that it could concern. -/
  | aside (unbegun : t.session = none) : Passage t m t m
  /-- The session is replaced by a new one, or by none, and so is ended. -/
  | replaced {session : Option Session} (fresh : session = none ∨ ∃ token packages,
        session = some (.start t.settings token packages)) :
      Passage t m { t with session } ((t.session.map (·.finish m)).getD m)
  /-- The session takes it up. -/
  | passed {s : Session} {event : Session.Event} (begun : t.session = some s)
      (unplanned : ∀ trouble, event ≠ .plan trouble) :
      Passage t m { t with session := some (s.perform m event).session } (s.perform m event).medium
  | planned (trouble : Trouble) : Passage t m t (m.withTrouble trouble)

/-- Whatever happens goes one of these ways. -/
theorem passage_perform (t : Transport) (m : Medium) (event : Event) :
    t.Passage m (t.perform m event).transport (t.perform m event).medium := by
  cases begun : t.session with
  | none =>
      cases event with
      | start token packages =>
          have replaced : t.Passage m _ _ := .replaced (Or.inr ⟨token, packages, rfl⟩)
          simp only [begun, Option.map_none, Option.getD_none] at replaced
          simp only [perform, start, begun]
          exact replaced
      | plan trouble => exact .planned trouble
      | nextPackage =>
          simp only [perform, nextPackage, begun]
          exact .aside begun
      | transferKeyValue sink =>
          simp only [perform, transferKeyValue, begun]
          exact .aside begun
      | streamChunk o =>
          simp only [perform, streamChunk, begun]
          exact .aside begun
      | abort =>
          simp only [perform, abort, begun]
          exact .aside begun
      | finish =>
          simp only [perform, finish, begun]
          exact .aside begun
  | some s =>
      have passed (own : Session.Event) (unplanned : ∀ trouble, own ≠ .plan trouble) :
          t.Passage m _ _ := .passed begun unplanned
      have replaced {session : Option Session} (fresh : session = none ∨ ∃ token packages,
          session = some (.start t.settings token packages)) :
          t.Passage m { t with session } (s.finish m) := by
        have passage : t.Passage m _ _ := .replaced fresh
        simp only [begun, Option.map_some, Option.getD_some] at passage
        exact passage
      cases event with
      | start token packages =>
          simp only [perform, start, begun]
          exact replaced (Or.inr ⟨token, packages, rfl⟩)
      | plan trouble => exact .planned trouble
      | nextPackage =>
          have passed := passed .nextPackage fun _ eq => by cases eq
          simp only [Session.perform] at passed
          simp only [perform, nextPackage, begun]
          exact passed
      | transferKeyValue sink =>
          have passed := passed (.transferKeyValue sink) fun _ eq => by cases eq
          simp only [Session.perform, withSession_self begun] at passed
          simp only [perform, transferKeyValue, begun]
          split <;> rename_i eq <;> rw [eq] at passed <;> exact passed
      | streamChunk o =>
          have passed := passed (.streamChunk o) fun _ eq => by cases eq
          simp only [Session.perform] at passed
          simp only [perform, streamChunk, begun]
          split <;> rename_i eq <;> rw [eq] at passed <;> exact passed
      | abort =>
          have passed := passed .abort fun _ eq => by cases eq
          simp only [Session.perform] at passed
          simp only [perform, abort, begun]
          exact passed
      | finish =>
          simp only [perform, finish, begun]
          exact replaced (Or.inl rfl)

/-- Nothing that happens changes the settings or the archive. -/
theorem Passage.keeps {t t' : Transport} {m m' : Medium} (passage : t.Passage m t' m') :
    t'.settings = t.settings ∧ m.HoldsSame m' := by
  cases passage with
  | aside unbegun => exact ⟨rfl, .refl m⟩
  | replaced fresh =>
      refine ⟨rfl, ?_⟩
      cases t.session with
      | none => exact .refl m
      | some s => exact holdsSame_finish s m
  | @passed s event begun unplanned =>
      have leads := s.leadsTo_perform m event fun trouble eq => absurd eq (unplanned trouble)
      exact ⟨rfl, leads.holdsSame⟩
  | planned trouble => exact ⟨rfl, m.holdsSame_withTrouble trouble⟩

/-- The transport has these settings, its medium the archive of the medium `m₀`, and beside the
handles that were open there, the one of its stream is all that is open. -/
structure Serves (settings : Settings) (m₀ : Medium) (t : Transport) (m : Medium) : Prop where
  settings : t.settings = settings
  archive : m₀.HoldsSame m
  accounts : m.Accounts m₀.live t.hasOpenStream
  settled : t.Settled

variable {settings : Settings} {m₀ m : Medium} {t : Transport}

theorem Serves.perform (serves : Serves settings m₀ t m) (event : Event) :
    Serves settings m₀ (t.perform m event).transport (t.perform m event).medium := by
  obtain ⟨kept, archive⟩ := (t.passage_perform m event).keeps
  have sound := sound_perform serves.settled serves.accounts event
  exact ⟨kept.trans serves.settings, serves.archive.trans archive, sound.accounts, sound.settled⟩

/-- Whatever was asked of a transport, it serves the archive with its settings. -/
theorem serves_behind (created : create settings = .ok t) (m : Medium) (events : List Event) :
    Serves settings m (t.behind m events).1 (t.behind m events).2 := by
  have fresh := session_of_create created
  subst fresh
  have serves : Serves settings m { settings } m := by
    refine ⟨rfl, .refl m, rfl, ?_⟩
    intro session begun
    cases begun
  exact behind_induction (Serves settings m) (fun _ _ event kept => kept.perform event) serves
    events

/-! ### A session that replaces another -/

/-- A session is started with the settings and the list that are given, over a medium on which a
handle may have been given back. -/
theorem start_eq (t : Transport) (m : Medium) (token : Nat) (packages : List String) :
    t.perform m (.start token packages) =
      { answer := .status .ok
        transport :=
          { settings := t.settings, session := some (.start t.settings token packages) }
        medium := { m with live := (t.perform m (.start token packages)).medium.live } } := by
  simp only [perform, start]
  cases t.session with
  | none => rfl
  | some session => exact congrArg _ (finish_eq session m)

/-! ### What the host sees -/

/-- What a call gives back beside its answer: the sink with the records it was given, the output
with the bytes it was given. -/
def Event.Returned : Event → Type
  | @Event.transferKeyValue σ _ _ => σ
  | .streamChunk _ => Output
  | .start _ _ | .nextPackage | .abort | .finish | .plan _ => Unit

/-- What a call gives back beside its answer. -/
def returned (t : Transport) (m : Medium) : (event : Event) → event.Returned
  | @Event.transferKeyValue _ _ sink => (t.transferKeyValue m sink).2.2
  | .streamChunk o => (t.streamChunk m o).2.2.2
  | .start _ _ | .nextPackage | .abort | .finish | .plan _ => ()

/-- What there is to see of one event: the answer, what comes back with it, and the state that is
left. -/
structure Sight : Type 1 where
  event : Event
  answer : Answer
  returned : event.Returned
  /-- The state of the session, with that of its stream. -/
  session : Option Session
  /-- How many handles are open. -/
  live : Nat

/-- What the host sees of one event. -/
def sight (t : Transport) (m : Medium) (event : Event) : Sight :=
  let moment := t.perform m event
  { event
    answer := moment.answer
    returned := t.returned m event
    session := moment.transport.session
    live := moment.medium.live }

/-- What the host sees of some events, one after the other. -/
def sights (t : Transport) (m : Medium) : List Event → List Sight
  | [] => []
  | event :: events =>
      let moment := t.perform m event
      t.sight m event :: moment.transport.sights moment.medium events

theorem returned_countMore (m : Medium) (k : Nat) (t : Transport) (event : Event) :
    t.returned (m.countMore k) event = t.returned m event := by
  cases event with
  | transferKeyValue sink => exact congrArg (·.2.2) (t.transferKeyValue_countMore m k sink)
  | streamChunk o => exact congrArg (·.2.2.2) (t.streamChunk_countMore m k o)
  | _ => rfl

/-- How often the archive has been opened is not seen. -/
theorem sights_countMore (m : Medium) (k : Nat) (t : Transport) (events : List Event) :
    t.sights (m.countMore k) events = t.sights m events := by
  induction events generalizing t m with
  | nil => rfl
  | cons event events ih =>
      simp only [sights, sight, perform_countMore, returned_countMore, Medium.live_countMore, ih]

/-- What is seen from a start on is what is seen of a session that has just begun. -/
theorem Serves.sights_start (serves : Serves settings m₀ t m) (trouble : Trouble) (token : Nat)
    (packages : List String) (later : List Event) :
    t.sights (m.withTrouble trouble) (.start token packages :: later) =
      { event := .start token packages
        answer := .status .ok
        returned := ()
        session := some (.start settings token packages)
        live := m₀.live } ::
      sights { settings, session := some (.start settings token packages) }
        { m₀.withTrouble trouble with opens := 0 } later := by
  have before : (m.withTrouble trouble).Accounts m₀.live t.hasOpenStream := serves.accounts
  have sound := sound_start before token packages
  have started := t.start_eq (m.withTrouble trouble) token packages
  have live :
      (t.perform (m.withTrouble trouble) (.start token packages)).medium.live = m₀.live := by
    have closed : (t.perform (m.withTrouble trouble)
        (.start token packages)).transport.hasOpenStream = false := by
      rw [started]
      rfl
    exact sound.accounts.of_free closed
  rw [live, serves.settings] at started
  -- The medium behind the start is that of `m₀`, opened some times more.
  have medium : ({ m.withTrouble trouble with live := m₀.live } : Medium) =
      ({ m₀.withTrouble trouble with opens := 0 } : Medium).countMore m.opens := by
    have archive : m₀.HoldsSame { m with live := m₀.live } :=
      ⟨serves.archive.content, serves.archive.reach⟩
    exact archive.countMore rfl trouble
  rw [medium] at started
  rw [sights, sight, started]
  simp only [sights_countMore]
  rfl

/-- From a call of `start` on, all that the host sees of a transport that has been used is what
it sees of one that has just been made, over the same archive and with the same settings: the
answers, what sinks and outputs are given, the state of the session and how many handles are
open.  The coming opens and reads go without trouble on both, or with the same. -/
theorem start_forgets_history (created : create settings = .ok t) (m : Medium)
    (earlier : List Event) (trouble : Trouble) (token : Nat) (packages : List String)
    (later : List Event) :
    (t.behind m earlier).1.sights ((t.behind m earlier).2.withTrouble trouble)
        (.start token packages :: later) =
      t.sights (m.withTrouble trouble) (.start token packages :: later) := by
  have used := serves_behind created m earlier
  have fresh := serves_behind created m []
  rw [used.sights_start trouble token packages later]
  exact (fresh.sights_start trouble token packages later).symm

end Runs

/-- A stream that was left open and a session in which every open was refused are forgotten. -/
theorem start_forgets_open_stream :
    create {} = .ok { settings := {} } ∧
    (behind { settings := {} } (Medium.ofContent Sample.content)
        [.start 1 ["p", "q"], .nextPackage, .streamChunk .willing,
          .plan { refusal := some .cutShort }, .nextPackage]).1.sights
      ((behind { settings := {} } (Medium.ofContent Sample.content)
        [.start 1 ["p", "q"], .nextPackage, .streamChunk .willing,
          .plan { refusal := some .cutShort }, .nextPackage]).2.withTrouble {})
      [.start 2 ["p"], .nextPackage, .streamChunk .willing, .finish] =
    sights { settings := {} } ((Medium.ofContent Sample.content).withTrouble {})
      [.start 2 ["p"], .nextPackage, .streamChunk .willing, .finish] := by
  have created : create {} = .ok { settings := {} } := rfl
  exact ⟨created, start_forgets_history created (.ofContent Sample.content) _ {} 2 ["p"] _⟩

end Transport
end BackupRestore
