/-
Module: BackupRestore.Proofs.Packages
Purpose: In which order a session looks at its packages, and which of them it gives.
Main exports: Look, survey, Session.nextPackage_cases, Session.Event, Session.Moment, Session.run,
  Session.Reached, Session.reached_run, Session.Iterates, Session.run_iterates_over_packages
-/
import BackupRestore.Proofs.Handles

namespace BackupRestore

/-!
A session goes through its list once.  What it has looked at is always the beginning of the
list, so one number says where it stands (`Session.Reached`): the place that it keeps says
the same, whatever else was asked of it since.  The calls in between change its stream and
the medium, and neither has a part in where the next look falls.

A call of `nextPackage` gives the first package from there on in which a look finds data.  On
a medium that gives no trouble a look is a function of the archive's bytes
(`classify_of_faultless`), and so is the list of all answers.
-/

/-- The package with the mode that a look has found, unless it has found none. -/
def choiceOf (package : String) (outcome : Except RestoreError RestoreMode) :
    Option PackageDescription :=
  match outcome with
  | .error _ | .ok .none => none
  | .ok mode => some { package, mode }

/-- One look at a package, and what it gave. -/
structure Look where
  index : Nat
  package : String
  outcome : Except RestoreError RestoreMode

/-- What the look makes of its package. -/
def Look.choice? (l : Look) : Option PackageDescription := choiceOf l.package l.outcome

/-- Look at packages, of which the first stands at `index`, up to the first that has data. -/
def survey (layout : Layout) (m : Medium) (index : Nat) : List String → List Look × Medium
  | [] => ([], m)
  | package :: rest =>
      match classify layout package m with
      | (outcome, m) =>
          match choiceOf package outcome with
          | some _ => ([{ index, package, outcome }], m)
          | none =>
              match survey layout m (index + 1) rest with
              | (looks, m) => ({ index, package, outcome } :: looks, m)

/-- The answer for a chosen package.  A full stream must have chunks that a buffer can hold. -/
def answerFor (chunkSize : Nat) (d : PackageDescription) : Except Misuse NextPackage :=
  if d.mode = .fullStream ∧ FullStream.chunkLimit ≤ chunkSize then .error .chunkTooLarge
  else .ok (.package d)

theorem answerFor_of_small {chunkSize : Nat} (small : chunkSize < FullStream.chunkLimit)
    (d : PackageDescription) : answerFor chunkSize d = .ok (.package d) :=
  if_neg fun both => Nat.not_lt.2 both.2 small

section Survey

variable {layout : Layout} {m : Medium}

/-- A survey goes on behind a package exactly if the look at it has found no data. -/
theorem survey_cons {m₁ : Medium} {package : String} {outcome : Except RestoreError RestoreMode}
    (probed : classify layout package m = (outcome, m₁)) (index : Nat) (rest : List String) :
    survey layout m index (package :: rest) =
      if (choiceOf package outcome).isSome then ([{ index, package, outcome }], m₁)
      else
        ({ index, package, outcome } :: (survey layout m₁ (index + 1) rest).1,
          (survey layout m₁ (index + 1) rest).2) := by
  rw [survey, probed]
  simp only
  cases choiceOf package outcome <;> rfl

/-- The looks of a survey fall on the packages one after the other. -/
theorem indices_survey (index : Nat) (remaining : List String) :
    (survey layout m index remaining).1.map Look.index =
      List.range' index (survey layout m index remaining).1.length ∧
    (survey layout m index remaining).1.map Look.package =
      remaining.take (survey layout m index remaining).1.length := by
  induction remaining generalizing m index with
  | nil => exact ⟨rfl, rfl⟩
  | cons package rest ih =>
      generalize probed : classify layout package m = answer
      obtain ⟨outcome, m₁⟩ := answer
      rw [survey_cons probed]
      split
      · exact ⟨rfl, rfl⟩
      · have later := @ih m₁ (index + 1)
        simp only [List.map_cons, List.length_cons, List.range'_succ, List.take_succ_cons]
        exact ⟨congrArg _ later.1, congrArg _ later.2⟩

theorem leadsTo_survey (index : Nat) (remaining : List String) :
    m.LeadsTo (survey layout m index remaining).2 := by
  induction remaining generalizing m index with
  | nil => exact .refl m
  | cons package rest ih =>
      have leads := (leads_classify layout package m).1
      generalize probed : classify layout package m = answer at leads
      obtain ⟨outcome, m₁⟩ := answer
      rw [survey_cons probed]
      split
      · exact leads
      · exact leads.trans (ih (index + 1))

/-- Where no open and no read fails, a look sees what the bytes of the archive say. -/
theorem outcome_survey_of_faultless {c : Content} (faultless : m.Faultless c) (index : Nat)
    (remaining : List String) :
    ∀ l ∈ (survey layout m index remaining).1,
      l.outcome = classifyIn c m.reach layout l.package := by
  induction remaining generalizing m index with
  | nil =>
      intro l member
      cases member
  | cons package rest ih =>
      obtain ⟨m₁, faultless₁, reach, probed⟩ := classify_of_faultless faultless layout package
      rw [survey_cons probed]
      split
      · intro l member
        cases List.mem_singleton.1 member
        rfl
      · intro l member
        rcases List.mem_cons.1 member with rfl | later
        · rfl
        · rw [← reach]
          exact ih faultless₁ (index + 1) l later

end Survey

namespace Session

/-! ### One call -/

/-- Nothing is left of the list, and nothing of the packages that were in it. -/
structure Spent (s : Session) : Prop where
  place : s.place = .exhausted
  mode : s.mode = .none
  stream : s.stream = none

theorem choose_eq (s : Session) (index : Nat) (d : PackageDescription) :
    ∃ stream, s.choose index d.package d.mode =
      (answerFor s.chunkSize d, { s with place := .at index, mode := d.mode, stream }) := by
  obtain ⟨package, mode⟩ := d
  unfold choose answerFor
  by_cases full : mode = .fullStream
  · by_cases small : s.chunkSize < FullStream.chunkLimit
    · refine ⟨some { package, chunkSize := s.chunkSize }, ?_⟩
      simp [full, FullStream.prepare, small]
    · refine ⟨s.stream, ?_⟩
      simp [full, FullStream.prepare, small, Nat.le_of_not_lt small]
  · exact ⟨s.stream, by simp [full]⟩

/-- A search goes on behind a package exactly if the look at it has found no data. -/
theorem seekPackage_cons {s : Session} {m m₁ : Medium} {package : String}
    {outcome : Except RestoreError RestoreMode}
    (probed : classify s.layout package m = (outcome, m₁)) (index : Nat) (rest : List String) :
    s.seekPackage m index (package :: rest) =
      match choiceOf package outcome with
      | some d => ((s.choose index d.package d.mode).1, (s.choose index d.package d.mode).2, m₁)
      | none => seekPackage { s with place := .at index } m₁ (index + 1) rest := by
  rw [seekPackage, probed]
  rcases outcome with e | mode
  · rfl
  · cases mode <;> rfl

/-- A search ends at the last package that it looks at, with the answer for that, or has
looked at all packages that were left and found data in none. -/
theorem seekPackage_cases (s : Session) (m : Medium) (index : Nat) (remaining : List String) :
    (∃ n d stream, (survey s.layout m index remaining).1.length = n + 1 ∧
      (survey s.layout m index remaining).1.filterMap Look.choice? = [d] ∧
      s.seekPackage m index remaining = (answerFor s.chunkSize d,
        { s with place := .at (index + n), mode := d.mode, stream },
        (survey s.layout m index remaining).2)) ∨
    ((survey s.layout m index remaining).1.length = remaining.length ∧
      (survey s.layout m index remaining).1.filterMap Look.choice? = [] ∧
      s.seekPackage m index remaining = (.ok .noMorePackages,
        { s with place := .exhausted, mode := .none },
        (survey s.layout m index remaining).2)) := by
  induction remaining generalizing s m index with
  | nil => exact Or.inr ⟨rfl, rfl, rfl⟩
  | cons package rest ih =>
      generalize probed : classify s.layout package m = answer
      obtain ⟨outcome, m₁⟩ := answer
      rw [seekPackage_cons probed, survey_cons probed]
      cases choice : choiceOf package outcome with
      | some d =>
          have found : Look.choice? { index, package, outcome } = some d := choice
          simp only [Option.isSome_some, if_true]
          obtain ⟨stream, chosen⟩ := s.choose_eq index d
          refine Or.inl ⟨0, d, stream, rfl, ?_, ?_⟩
          · rw [List.filterMap_cons_some found, List.filterMap_nil]
          · rw [chosen]
            rfl
      | none =>
          have skipped : Look.choice? { index, package, outcome } = none := choice
          simp only [Option.isSome_none, Bool.false_eq_true, if_false, List.length_cons]
          -- What the place says while the search goes on, no later step looks at.
          rcases ih { s with place := .at index } m₁ (index + 1) with
            ⟨n, d, stream, length, choices, eq⟩ | ⟨length, choices, eq⟩
          · refine Or.inl ⟨n + 1, d, stream, congrArg _ length, ?_, ?_⟩
            · rw [List.filterMap_cons_none skipped]
              exact choices
            · rw [eq, Nat.add_right_comm, Nat.add_assoc]
          · refine Or.inr ⟨congrArg _ length, ?_, eq⟩
            rw [List.filterMap_cons_none skipped]
            exact choices

/-- The looks that the next package costs, and the medium behind them. -/
def surveyNext (s : Session) (m : Medium) : List Look × Medium :=
  match s.nextIndex? with
  | none => ([], (s.dropStream m).2)
  | some index => survey s.layout (s.dropStream m).2 index (s.packages.drop index)

theorem session_dropStream (s : Session) (m : Medium) :
    (s.dropStream m).1 = { s with stream := none } := by
  obtain ⟨layout, chunkSize, token, packages, place, mode, stream⟩ := s
  cases stream <;> rfl

/-- A call for the next package looks on from where the session stands.  It ends at a package
with data, or at the end of the list; and it looks at nothing if the list has run out before. -/
theorem nextPackage_cases (s : Session) (m : Medium) :
    (∃ index n d stream, s.nextIndex? = some index ∧ (s.surveyNext m).1.length = n + 1 ∧
      (s.surveyNext m).1.filterMap Look.choice? = [d] ∧
      s.nextPackage m = (answerFor s.chunkSize d,
        { s with place := .at (index + n), mode := d.mode, stream }, (s.surveyNext m).2)) ∨
    (∃ index, s.nextIndex? = some index ∧
      (s.surveyNext m).1.length = (s.packages.drop index).length ∧
      (s.surveyNext m).1.filterMap Look.choice? = [] ∧
      s.nextPackage m = (.ok .noMorePackages,
        { s with place := .exhausted, mode := .none, stream := none }, (s.surveyNext m).2)) ∨
    (s.nextIndex? = none ∧ (s.surveyNext m).1 = [] ∧
      s.nextPackage m =
        (.ok .noMorePackages, { s with stream := none }, (s.surveyNext m).2)) := by
  have dropped := s.session_dropStream m
  unfold surveyNext nextPackage
  generalize s.dropStream m = result at dropped
  obtain ⟨s₁, m₁⟩ := result
  simp only at dropped
  subst dropped
  have same_place : nextIndex? { s with stream := none } = s.nextIndex? := rfl
  simp only [same_place]
  cases place : s.nextIndex? with
  | none => exact Or.inr (Or.inr ⟨rfl, rfl, rfl⟩)
  | some index =>
      rcases seekPackage_cases { s with stream := none } m₁ index (s.packages.drop index) with
        ⟨n, d, stream, length, choices, eq⟩ | ⟨length, choices, eq⟩
      · exact Or.inl ⟨index, n, d, stream, rfl, length, choices, eq⟩
      · exact Or.inr (Or.inl ⟨index, rfl, length, choices, eq⟩)

/-! ### Runs -/

/-- What happens in a run: a call of the host, or a change in how the medium answers. -/
inductive Event : Type 1 where
  | nextPackage
  | streamChunk (o : Output)
  | transferKeyValue {σ : Type} [RecordSink σ] (sink : σ)
  | abort
  | classify (package : String)
  | plan (trouble : Trouble)

/-- One event of a run, with the state in front of it and the state behind it. -/
structure Moment where
  earlier : Session
  before : Medium
  /-- What a call for the next package was answered. -/
  answer? : Option (Except Misuse NextPackage) := none
  session : Session
  medium : Medium

/-- The looks at packages that the event consists of. -/
def Moment.looks (moment : Moment) : List Look :=
  match moment.answer? with
  | none => []
  | some _ => (moment.earlier.surveyNext moment.before).1

/-- All looks of a run, in their order. -/
def looksOf (moments : List Moment) : List Look := moments.flatMap Moment.looks

/-- All answers to calls for the next package, in their order. -/
def answersOf (moments : List Moment) : List (Except Misuse NextPackage) :=
  moments.filterMap Moment.answer?

/-! ### Where a session stands -/

/-- From its beginning, the session has come to have looked at the packages `seen`: those are
the first of its list, and its place is behind them or behind the whole list. -/
structure Reached (start s : Session) (seen : List Look) : Prop where
  layout : s.layout = start.layout
  chunkSize : s.chunkSize = start.chunkSize
  packages : s.packages = start.packages
  indices : seen.map Look.index = List.range seen.length
  names : seen.map Look.package = start.packages.take seen.length
  place : s.nextIndex? = some seen.length ∨ (s.Spent ∧ seen.length = start.packages.length)

theorem nextIndex?_of_spent {s : Session} (spent : s.Spent) : s.nextIndex? = none := by
  simp [nextIndex?, spent.place]

theorem Reached.within {start s : Session} {seen : List Look} (reached : Reached start s seen) :
    seen.length ≤ start.packages.length := by
  have lengths := congrArg List.length reached.names
  rw [List.length_map, List.length_take] at lengths
  exact lengths ▸ Nat.min_le_right _ _

theorem Reached.complete {start s : Session} {seen : List Look} (reached : Reached start s seen)
    (spent : s.Spent) : seen.length = start.packages.length := by
  rcases reached.place with going | ⟨-, complete⟩
  · rw [nextIndex?_of_spent spent] at going
    cases going
  · exact complete

/-- An event that changes nothing but the stream, and gives no stream to a session whose list
has run out, leaves it where it stands. -/
theorem Reached.withStream {start s : Session} {seen : List Look} {stream : Option FullStream}
    (reached : Reached start s seen) (kept : s.Spent → stream = none) :
    Reached start { s with stream } seen where
  layout := reached.layout
  chunkSize := reached.chunkSize
  packages := reached.packages
  indices := reached.indices
  names := reached.names
  place := by
    rcases reached.place with going | ⟨spent, complete⟩
    · exact Or.inl going
    · exact Or.inr ⟨⟨spent.place, spent.mode, kept spent⟩, complete⟩

/-- A session that looks on from its place has looked at the beginning of its list again. -/
theorem Reached.lookOn {start s s' : Session} {seen : List Look} {m : Medium} {index : Nat}
    (reached : Reached start s seen) (place : s.nextIndex? = some index)
    (layout : s'.layout = s.layout) (chunkSize : s'.chunkSize = s.chunkSize)
    (packages : s'.packages = s.packages)
    (behind : s'.nextIndex? = some (index + (s.surveyNext m).1.length) ∨
      (s'.Spent ∧ (s.surveyNext m).1.length = (s.packages.drop index).length)) :
    Reached start s' (seen ++ (s.surveyNext m).1) := by
  have here : index = seen.length := by
    rcases reached.place with going | ⟨spent, -⟩
    · exact Option.some.inj (place.symm.trans going)
    · rw [nextIndex?_of_spent spent] at place
      cases place
  have surveyed : s.surveyNext m =
      survey s.layout (s.dropStream m).2 seen.length (start.packages.drop seen.length) := by
    simp only [surveyNext, place, here, reached.packages]
  have further := @indices_survey s.layout (s.dropStream m).2 seen.length
    (start.packages.drop seen.length)
  rw [← surveyed] at further
  refine ⟨layout.trans reached.layout, chunkSize.trans reached.chunkSize,
    packages.trans reached.packages, ?_, ?_, ?_⟩
  · rw [List.map_append, reached.indices, further.1, List.length_append, List.range_eq_range',
      List.range_eq_range', ← List.range'_append_1, Nat.zero_add]
  · rw [List.map_append, reached.names, further.2, List.length_append, List.take_add]
  · rw [List.length_append, ← here]
    rcases behind with going | ⟨spent, rest⟩
    · exact Or.inl going
    · refine Or.inr ⟨spent, ?_⟩
      have within := reached.within
      rw [rest, List.length_drop, reached.packages, here]
      omega

/-- What an event is answered: nothing, as it is no call for the next package; the package
that the last of its looks has found; or that there is none left. -/
inductive Moment.Answers (chunkSize : Nat) (moment : Moment) : Prop where
  | other (unasked : moment.answer? = none)
  | found (d : PackageDescription) (answer : moment.answer? = some (answerFor chunkSize d))
      (choices : moment.looks.filterMap Look.choice? = [d])
  | ended (answer : moment.answer? = some (.ok .noMorePackages))
      (choices : moment.looks.filterMap Look.choice? = []) (spent : moment.session.Spent)

variable {start s : Session} {seen : List Look} {m : Medium}

theorem session_streamChunk (s : Session) (m : Medium) (o : Output) :
    ∃ stream, (s.streamChunk m o).2.1 = { s with stream } ∧ (s.Spent → stream = none) := by
  unfold streamChunk
  by_cases chosen : s.mode = .fullStream
  · rw [if_neg (not_not_intro chosen)]
    have unspent : ¬ s.Spent := by
      intro spent
      rw [spent.mode] at chosen
      cases chosen
    cases held : s.stream with
    | none => exact ⟨s.stream, rfl, fun _ => held⟩
    | some stream =>
        refine ⟨_, rfl, ?_⟩
        intro spent
        exact absurd spent unspent
  · rw [if_pos chosen]
    exact ⟨s.stream, rfl, fun spent => spent.stream⟩

theorem session_abort (s : Session) (m : Medium) :
    ∃ stream, (s.abort m).1 = { s with stream } ∧ (s.Spent → stream = none) := by
  unfold abort
  cases held : s.stream with
  | none => exact ⟨s.stream, rfl, fun _ => held⟩
  | some stream =>
      refine ⟨_, rfl, ?_⟩
      intro spent
      rw [spent.stream] at held
      cases held

theorem Moment.looks_of_unasked {moment : Moment} (unasked : moment.answer? = none) :
    moment.looks = [] := by
  rw [Moment.looks, unasked]

/-- Nothing more comes of a session whose list has run out: no call changes it, and one for
the next package does not touch the medium. -/
structure Moment.Idle (s : Session) (moment : Moment) : Prop where
  session : moment.session = s
  looks : moment.looks = []
  answer : ∀ answer, moment.answer? = some answer →
    answer = .ok .noMorePackages ∧ moment.medium = moment.before

/-- A run that finds the list at its end looks at nothing, and says so to each call for the
next package. -/
theorem answersOf_of_idle {moments : List Moment} (idle : ∀ moment ∈ moments, moment.Idle s) :
    looksOf moments = [] ∧
      ∃ n, answersOf moments = List.replicate n (.ok .noMorePackages) := by
  induction moments with
  | nil => exact ⟨rfl, 0, rfl⟩
  | cons moment moments ih =>
      have here := idle moment List.mem_cons_self
      obtain ⟨looks, n, answers⟩ := ih fun later member =>
        idle later (List.mem_cons_of_mem _ member)
      have none_here : looksOf (moment :: moments) = [] := by
        simp only [looksOf, List.flatMap_cons, here.looks, List.nil_append]
        exact looks
      refine ⟨none_here, ?_⟩
      cases asked : moment.answer? with
      | none => exact ⟨n, by rw [answersOf, List.filterMap_cons_none asked]; exact answers⟩
      | some answer =>
          obtain ⟨rfl, -⟩ := here.answer answer asked
          exact ⟨n + 1, by
            rw [answersOf, List.filterMap_cons_some asked, List.replicate_succ]
            exact congrArg _ answers⟩

/-! ### What an event and a run do -/

section Runs

variable [Zip.Codecs]

/-- Let one event happen. -/
def perform (s : Session) (m : Medium) (event : Event) : Moment :=
  match event with
  | .nextPackage =>
      match s.nextPackage m with
      | (answer, session, medium) =>
          { earlier := s, before := m, answer? := some answer, session, medium }
  | .streamChunk o =>
      match s.streamChunk m o with
      | (_, session, medium, _) => { earlier := s, before := m, session, medium }
  | @Event.transferKeyValue _ _ sink =>
      match s.transferKeyValue m sink with
      | (_, medium, _) => { earlier := s, before := m, session := s, medium }
  | .abort =>
      match s.abort m with
      | (session, medium) => { earlier := s, before := m, session, medium }
  | .classify package =>
      match BackupRestore.classify s.layout package m with
      | (_, medium) => { earlier := s, before := m, session := s, medium }
  | .plan trouble => { earlier := s, before := m, session := s, medium := m.withTrouble trouble }

/-- The moments of a run, one for each event. -/
def run (s : Session) (m : Medium) : List Event → List Moment
  | [] => []
  | event :: events =>
      let moment := s.perform m event
      moment :: moment.session.run moment.medium events

/-- What every event keeps, the whole run keeps; and so each moment is as every event makes it. -/
theorem forall_run (Kept : Session → Medium → Prop) {Good : Moment → Prop} {s : Session}
    {m : Medium} {events : List Event} (begins : Kept s m)
    (step : ∀ s m, ∀ event ∈ events, Kept s m →
      Good (s.perform m event) ∧ Kept (s.perform m event).session (s.perform m event).medium) :
    ∀ moment ∈ s.run m events, Good moment := by
  induction events generalizing s m with
  | nil =>
      intro moment member
      cases member
  | cons event events ih =>
      obtain ⟨good, kept⟩ := step s m event List.mem_cons_self begins
      intro moment member
      rcases List.mem_cons.1 member with rfl | later
      · exact good
      · refine ih kept ?_ moment later
        intro s m event member
        exact step s m event (List.mem_cons_of_mem _ member)

/-- An event that is no call for the next package is not answered as one, and changes nothing of
the session but its stream; and it gives no stream to one whose list has run out. -/
theorem perform_cases (s : Session) (m : Medium) (event : Event) :
    event = .nextPackage ∨
    ((s.perform m event).answer? = none ∧
      ∃ stream, (s.perform m event).session = { s with stream } ∧ (s.Spent → stream = none)) := by
  cases event with
  | nextPackage => exact Or.inl rfl
  | streamChunk o => exact Or.inr ⟨rfl, s.session_streamChunk m o⟩
  | transferKeyValue sink => exact Or.inr ⟨rfl, s.stream, rfl, Spent.stream⟩
  | abort => exact Or.inr ⟨rfl, s.session_abort m⟩
  | classify package => exact Or.inr ⟨rfl, s.stream, rfl, Spent.stream⟩
  | plan trouble => exact Or.inr ⟨rfl, s.stream, rfl, Spent.stream⟩

/-- A call for the next package takes a session from one place in its list to the next. -/
theorem reached_nextPackage (reached : Reached start s seen) :
    Reached start (s.perform m .nextPackage).session
        (seen ++ (s.perform m .nextPackage).looks) ∧
      (s.perform m .nextPackage).Answers start.chunkSize := by
  rcases s.nextPackage_cases m with
    ⟨index, n, d, stream, place, length, choices, eq⟩ | ⟨index, place, length, choices, eq⟩ |
    ⟨place, nothing, eq⟩
  · have moment : s.perform m .nextPackage =
        { earlier := s, before := m, answer? := some (answerFor s.chunkSize d)
          session := { s with place := .at (index + n), mode := d.mode, stream }
          medium := (s.surveyNext m).2 } := by
      simp only [perform, eq]
    rw [moment]
    refine ⟨reached.lookOn place rfl rfl rfl (Or.inl ?_), .found d ?_ choices⟩
    · rw [length, ← Nat.add_assoc]
      rfl
    · rw [reached.chunkSize]
  · have moment : s.perform m .nextPackage =
        { earlier := s, before := m, answer? := some (.ok .noMorePackages)
          session := { s with place := .exhausted, mode := .none, stream := none }
          medium := (s.surveyNext m).2 } := by
      simp only [perform, eq]
    rw [moment]
    have spent : Spent { s with place := .exhausted, mode := .none, stream := none } :=
      ⟨rfl, rfl, rfl⟩
    exact ⟨reached.lookOn place rfl rfl rfl (Or.inr ⟨spent, length⟩), .ended rfl choices spent⟩
  · have moment : s.perform m .nextPackage =
        { earlier := s, before := m, answer? := some (.ok .noMorePackages)
          session := { s with stream := none }
          medium := (s.surveyNext m).2 } := by
      simp only [perform, eq]
    have spent : s.Spent := by
      rcases reached.place with going | ⟨spent, -⟩
      · rw [place] at going
        cases going
      · exact spent
    rw [moment]
    refine ⟨?_, .ended rfl ?_ ⟨spent.place, spent.mode, rfl⟩⟩
    · simp only [Moment.looks, nothing, List.append_nil]
      exact reached.withStream fun _ => rfl
    · simp only [Moment.looks, nothing, List.filterMap_nil]

/-- Every event leaves the session behind the looks that have been made, and is answered from
the last of them. -/
theorem reached_perform (reached : Reached start s seen) (event : Event) :
    Reached start (s.perform m event).session (seen ++ (s.perform m event).looks) ∧
      (s.perform m event).Answers start.chunkSize := by
  rcases s.perform_cases m event with rfl | ⟨unasked, stream, eq, kept⟩
  · exact reached_nextPackage reached
  · refine ⟨?_, .other unasked⟩
    rw [Moment.looks_of_unasked unasked, List.append_nil, eq]
    exact reached.withStream kept

theorem idle_nextPackage (spent : s.Spent) (m : Medium) : (s.perform m .nextPackage).Idle s := by
  have dropped : s.dropStream m = (s, m) := by simp only [dropStream, spent.stream]
  have answered : s.nextPackage m = (.ok .noMorePackages, s, m) := by
    simp only [nextPackage, dropped, nextIndex?_of_spent spent]
  have moment : s.perform m .nextPackage =
      { earlier := s, before := m, answer? := some (.ok .noMorePackages), session := s
        medium := m } := by
    simp only [perform, answered]
  rw [moment]
  refine ⟨rfl, ?_, ?_⟩
  · simp only [Moment.looks, surveyNext, nextIndex?_of_spent spent]
  · intro answer eq
    exact ⟨(Option.some.inj eq).symm, rfl⟩

theorem idle_perform (spent : s.Spent) (m : Medium) (event : Event) :
    (s.perform m event).Idle s := by
  rcases s.perform_cases m event with rfl | ⟨unasked, stream, eq, kept⟩
  · exact idle_nextPackage spent m
  · refine ⟨?_, Moment.looks_of_unasked unasked, ?_⟩
    · rw [eq, kept spent, ← spent.stream]
    · intro answer asked
      rw [unasked] at asked
      cases asked

theorem idle_run (spent : s.Spent) (m : Medium) (events : List Event) :
    ∀ moment ∈ s.run m events, moment.Idle s := by
  refine forall_run (fun s' _ => s' = s) rfl ?_
  rintro s' m event - rfl
  have idle := idle_perform spent m event
  exact ⟨idle, idle.session⟩

/-- Through a run the session stays behind the looks that have been made.  The packages found
are answered in their order, and then, if the list has been gone through, that it has. -/
theorem reached_run (reached : Reached start s seen) (events : List Event) :
    (∃ final, Reached start final (seen ++ looksOf (s.run m events))) ∧
    ∃ n, answersOf (s.run m events) =
        ((looksOf (s.run m events)).filterMap Look.choice?).map (answerFor start.chunkSize) ++
          List.replicate n (.ok .noMorePackages) ∧
      (n ≠ 0 → (seen ++ looksOf (s.run m events)).length = start.packages.length) := by
  induction events generalizing s m seen with
  | nil =>
      have none_made : seen ++ looksOf (s.run m []) = seen := List.append_nil seen
      rw [none_made]
      refine ⟨⟨s, reached⟩, 0, rfl, ?_⟩
      intro more
      exact absurd rfl more
  | cons event events ih =>
      obtain ⟨behind, answered⟩ := reached_perform (m := m) reached event
      obtain ⟨⟨final, last⟩, n, answers, complete⟩ := ih (m := (s.perform m event).medium) behind
      have unrolled : s.run m (event :: events) = s.perform m event ::
          (s.perform m event).session.run (s.perform m event).medium events := rfl
      have looks : looksOf (s.run m (event :: events)) = (s.perform m event).looks ++
          looksOf ((s.perform m event).session.run (s.perform m event).medium events) := by
        rw [unrolled, looksOf, List.flatMap_cons]
        rfl
      rw [List.append_assoc, ← looks] at last complete
      refine ⟨⟨final, last⟩, ?_⟩
      cases answered with
      | other unasked =>
          rw [Moment.looks_of_unasked unasked, List.nil_append] at looks
          refine ⟨n, ?_, complete⟩
          rw [unrolled, answersOf, List.filterMap_cons_none unasked, ← unrolled, looks]
          exact answers
      | found d answer choices =>
          refine ⟨n, ?_, complete⟩
          rw [looks, List.filterMap_append, choices, unrolled, answersOf,
            List.filterMap_cons_some answer]
          exact congrArg _ answers
      | ended answer choices spent =>
          obtain ⟨nothing, k, rest⟩ := answersOf_of_idle (idle_run spent _ events)
          rw [nothing, List.append_nil] at looks
          refine ⟨k + 1, ?_, fun _ => ?_⟩
          · rw [looks, choices, unrolled, answersOf, List.filterMap_cons_some answer,
              List.replicate_succ]
            exact congrArg _ rest
          · rw [looks]
            exact behind.complete spent

end Runs

end Session

/-! ### What the calls in between leave to a look -/

theorem leadsTo_transferRecords [Zip.Codecs] {σ : Type} [RecordSink σ] (layout : Layout)
    (package : String) (m : Medium) (sink : σ) :
    m.LeadsTo (transferRecords layout package m sink).2.1 := by
  unfold transferRecords
  rcases Archive.openOn_cases m with ⟨e, m₁, opened, leads, -⟩ | ⟨a, m₁, opened, leads, -⟩
  · rw [opened]
    exact leads
  · have reads := reads_transferFrom a (.under (layout.recordsOf package)) a.size 0 m₁ sink 0
    rw [opened]
    exact (leads.trans reads.leadsTo).release

/-- The change to come makes no open and no read fail. -/
structure Trouble.Harmless (t : Trouble) : Prop where
  admitting : t.refusal = none
  planned : ∀ fate ∈ t.openFates, fate = none
  unrefused : t.refusedNext = none
  sound : t.delivery.Sound

theorem Trouble.Harmless.leadsTo {t : Trouble} (harmless : t.Harmless) (m : Medium) :
    m.LeadsTo (m.withTrouble t) where
  content := rfl
  reach := rfl
  faultless _ := fun faultless =>
    ⟨faultless.content, harmless.admitting, harmless.planned, harmless.unrefused, harmless.sound⟩

namespace Session

theorem leadsTo_dropStream (s : Session) (m : Medium) : m.LeadsTo (s.dropStream m).2 := by
  unfold dropStream
  cases s.stream with
  | none => exact .refl m
  | some stream => exact stream.leadsTo_abort m

theorem leadsTo_surveyNext (s : Session) (m : Medium) : m.LeadsTo (s.surveyNext m).2 := by
  have dropped := s.leadsTo_dropStream m
  unfold surveyNext
  cases s.nextIndex? with
  | none => exact dropped
  | some index => exact dropped.trans (leadsTo_survey index _)

theorem medium_nextPackage (s : Session) (m : Medium) :
    (s.nextPackage m).2.2 = (s.surveyNext m).2 := by
  rcases s.nextPackage_cases m with
    ⟨index, n, d, stream, -, -, -, eq⟩ | ⟨index, -, -, -, eq⟩ | ⟨-, -, eq⟩ <;> rw [eq]

theorem leadsTo_perform [Zip.Codecs] (s : Session) (m : Medium) (event : Event)
    (harmless : ∀ trouble, event = .plan trouble → trouble.Harmless) :
    m.LeadsTo (s.perform m event).medium := by
  cases event with
  | nextPackage =>
      have behind : (s.perform m .nextPackage).medium = (s.nextPackage m).2.2 := rfl
      rw [behind, medium_nextPackage]
      exact s.leadsTo_surveyNext m
  | streamChunk o =>
      have behind : (s.perform m (.streamChunk o)).medium = (s.streamChunk m o).2.2.1 := rfl
      rw [behind]
      unfold streamChunk
      split
      · exact .refl m
      · cases s.stream with
        | none => exact .refl m
        | some stream => exact stream.leadsTo_nextChunk s.layout m o
  | transferKeyValue sink =>
      have behind : (s.perform m (.transferKeyValue sink)).medium =
        (s.transferKeyValue m sink).2.1 := rfl
      rw [behind]
      unfold transferKeyValue
      cases s.currentPackage? with
      | none => exact .refl m
      | some package =>
          have leads := leadsTo_transferRecords s.layout package m sink
          simp only
          split
          · exact .refl m
          · split <;> rename_i eq <;> rwa [eq] at leads
  | abort =>
      have behind : (s.perform m .abort).medium = (s.abort m).2 := rfl
      rw [behind]
      unfold abort
      cases s.stream with
      | none => exact .refl m
      | some stream => exact stream.leadsTo_abort m
  | classify package => exact (leads_classify s.layout package m).1
  | plan trouble => exact (harmless trouble rfl).leadsTo m

theorem looks_perform [Zip.Codecs] (s : Session) (m : Medium) (event : Event) :
    (s.perform m event).looks = [] ∨ (s.perform m event).looks = (s.surveyNext m).1 := by
  rcases s.perform_cases m event with rfl | ⟨unasked, -⟩
  · exact Or.inr rfl
  · exact Or.inl (Moment.looks_of_unasked unasked)

theorem outcome_surveyNext_of_faultless {m : Medium} {c : Content} (faultless : m.Faultless c)
    (s : Session) :
    ∀ l ∈ (s.surveyNext m).1, l.outcome = classifyIn c m.reach s.layout l.package := by
  have dropped := s.leadsTo_dropStream m
  unfold surveyNext
  cases s.nextIndex? with
  | none =>
      intro l member
      cases member
  | some index =>
      rw [← dropped.reach]
      exact outcome_survey_of_faultless (dropped.faultless c faultless) index _

/-- Where no open and no read fails throughout a run, each of its looks sees what the bytes
of the archive say. -/
theorem outcome_run_of_faultless [Zip.Codecs] {start s : Session} {seen : List Look} {m : Medium}
    {c : Content} (reached : Reached start s seen) (faultless : m.Faultless c)
    (events : List Event) (harmless : ∀ trouble, .plan trouble ∈ events → trouble.Harmless) :
    ∀ l ∈ looksOf (s.run m events),
      l.outcome = classifyIn c m.reach start.layout l.package := by
  have each : ∀ moment ∈ s.run m events, ∀ l ∈ moment.looks,
      l.outcome = classifyIn c m.reach start.layout l.package := by
    refine forall_run (fun s' m' => (∃ seen, Reached start s' seen) ∧ m'.Faultless c ∧
      m'.reach = m.reach) ⟨⟨seen, reached⟩, faultless, rfl⟩ ?_
    rintro s' m' event planned ⟨⟨seen', reached'⟩, faultless', reach⟩
    have leads := s'.leadsTo_perform m' event fun trouble eq => harmless trouble (eq ▸ planned)
    constructor
    · intro l member
      rcases s'.looks_perform m' event with nothing | surveyed
      · rw [nothing] at member
        cases member
      · rw [surveyed] at member
        rw [← reached'.layout, ← reach]
        exact outcome_surveyNext_of_faultless faultless' s' l member
    · exact ⟨⟨_, (reached_perform reached' event).1⟩, leads.faultless c faultless',
        leads.reach.trans reach⟩
  intro l member
  obtain ⟨moment, happened, here⟩ := List.mem_flatMap.1 member
  exact each moment happened l here

/-! ### Whole runs -/

/-- In a run of a session the packages are looked at in the order of the list, and those in
which a look finds data are given, in that order, with the mode that it found. -/
structure Iterates (s : Session) (moments : List Moment) : Prop where
  /-- The looks fall on one index after the other, and so on none twice. -/
  indices : (looksOf moments).map Look.index = List.range (looksOf moments).length
  packages : (looksOf moments).map Look.package = s.packages.take (looksOf moments).length
  /-- The calls give what the looks have found, one after the other, and then nothing. -/
  answers : ∃ n, answersOf moments =
    ((looksOf moments).filterMap Look.choice?).map (fun d => .ok (.package d)) ++
      List.replicate n (.ok .noMorePackages)
  /-- A call says that no package is left only when all have been looked at. -/
  complete : .ok .noMorePackages ∈ answersOf moments →
    (looksOf moments).length = s.packages.length
  /-- Behind the stream of the package before, its looks are all for which a call touches the
  medium. -/
  surveyed : ∀ moment ∈ moments, moment.answer?.isSome = true →
    moment.medium = (moment.earlier.surveyNext moment.before).2
  /-- A session whose list has run out has no package and no mode, and stays so.  No look is
  made any more, and no call for the next package touches the medium. -/
  ended : moments.Pairwise fun moment next =>
    moment.answer? = some (.ok .noMorePackages) → next.Idle moment.session
  empty : ∀ moment ∈ moments, moment.answer? = some (.ok .noMorePackages) →
    moment.session.mode = .none ∧ moment.session.currentPackage? = none

theorem reached_start (settings : Settings) (token : Nat) (packages : List String) :
    Reached (start settings token packages) (start settings token packages) [] :=
  ⟨rfl, rfl, rfl, rfl, rfl, Or.inl rfl⟩

theorem answerFor_ne_noMorePackages (chunkSize : Nat) (d : PackageDescription) :
    answerFor chunkSize d ≠ .ok .noMorePackages := by
  unfold answerFor
  split
  · intro eq
    cases eq
  · intro eq
    cases eq

theorem Moment.Answers.spent {chunkSize : Nat} {moment : Moment}
    (answered : moment.Answers chunkSize)
    (ended : moment.answer? = some (.ok .noMorePackages)) : moment.session.Spent := by
  cases answered with
  | other unasked =>
      rw [unasked] at ended
      cases ended
  | found d answer choices =>
      rw [answer] at ended
      exact absurd (Option.some.inj ended) (answerFor_ne_noMorePackages chunkSize d)
  | ended answer choices spent => exact spent

/-- When it has been said that no package is left, the list has run out for good. -/
theorem spent_run [Zip.Codecs] {start s : Session} {seen : List Look} {m : Medium}
    (reached : Reached start s seen) (events : List Event) :
    ∀ moment ∈ s.run m events, moment.answer? = some (.ok .noMorePackages) →
      moment.session.Spent := by
  refine forall_run (fun s' _ => ∃ seen, Reached start s' seen) ⟨seen, reached⟩ ?_
  rintro s' m' event - ⟨seen', reached'⟩
  obtain ⟨behind, answered⟩ := reached_perform (m := m') reached' event
  exact ⟨answered.spent, _, behind⟩

theorem ended_run [Zip.Codecs] {start s : Session} {seen : List Look} {m : Medium}
    (reached : Reached start s seen) (events : List Event) :
    (s.run m events).Pairwise fun moment next =>
      moment.answer? = some (.ok .noMorePackages) → next.Idle moment.session := by
  induction events generalizing s m seen with
  | nil => exact .nil
  | cons event events ih =>
      obtain ⟨behind, answered⟩ := reached_perform (m := m) reached event
      refine .cons ?_ (ih (m := (s.perform m event).medium) behind)
      intro next member ended
      exact idle_run (answered.spent ended) _ events next member

theorem surveyed_run [Zip.Codecs] (s : Session) (m : Medium) (events : List Event) :
    ∀ moment ∈ s.run m events, moment.answer?.isSome = true →
      moment.medium = (moment.earlier.surveyNext moment.before).2 := by
  refine forall_run (fun _ _ => True) trivial ?_
  intro s m event _ _
  refine ⟨?_, trivial⟩
  intro asked
  rcases s.perform_cases m event with rfl | ⟨unasked, -⟩
  · exact s.medium_nextPackage m
  · rw [unasked] at asked
    cases asked

/-- The packages that are given, as the bytes of the archive have it. -/
def answersIn (c : Content) (reach : Option Nat) (layout : Layout) (packages : List String) :
    List (Except Misuse NextPackage) :=
  (packages.filterMap fun package => choiceOf package (classifyIn c reach layout package)).map
    fun d => .ok (.package d)

/-- Looks that see what the archive says choose what the archive says. -/
theorem choices_of_outcomes {c : Content} {reach : Option Nat} {layout : Layout}
    {looks : List Look}
    (outcomes : ∀ l ∈ looks, l.outcome = classifyIn c reach layout l.package) :
    looks.filterMap Look.choice? = (looks.map Look.package).filterMap fun package =>
      choiceOf package (classifyIn c reach layout package) := by
  induction looks with
  | nil => rfl
  | cons l looks ih =>
      have here : l.choice? = choiceOf l.package (classifyIn c reach layout l.package) := by
        rw [Look.choice?, outcomes l List.mem_cons_self]
      have later := ih fun l' member => outcomes l' (List.mem_cons_of_mem _ member)
      rw [List.map_cons, List.filterMap_cons, List.filterMap_cons, here, later]

/-- What begins as `all` does and is filled up with one value once all is there, is `all` with
that value behind it. -/
theorem eq_getD_of_prefix {α : Type} {given first all : List α} {filler : α} {n : Nat}
    (eq : given = first ++ List.replicate n filler) (begins : first <+: all)
    (complete : n ≠ 0 → first = all) {k : Nat} {value : α} (found : given[k]? = some value) :
    value = (all[k]?).getD filler := by
  subst eq
  by_cases within : k < first.length
  · obtain ⟨rest, rfl⟩ := begins
    rw [List.getElem?_append_left within] at found ⊢
    rw [found]
    rfl
  · have beyond := Nat.le_of_not_lt within
    rw [List.getElem?_append_right beyond] at found
    obtain ⟨some_left, rfl⟩ := List.mem_replicate.1 (List.mem_of_getElem? found)
    rw [← complete some_left, List.getElem?_eq_none beyond]
    rfl

/-- Every run of a session whose chunks fit a buffer iterates over its packages.  If no open and no
read fails, its answers are those that the bytes of the archive give, whatever calls are made in
between. -/
theorem run_iterates_over_packages [Zip.Codecs] {settings : Settings}
    (small : settings.chunkSize < FullStream.chunkLimit) (token : Nat) (packages : List String)
    (m : Medium) (events : List Event) :
    (start settings token packages).Iterates ((start settings token packages).run m events) ∧
    ∀ c, m.Faultless c → (∀ trouble, Event.plan trouble ∈ events → trouble.Harmless) →
      ∀ (k : Nat) (answer : Except Misuse NextPackage),
        (answersOf ((start settings token packages).run m events))[k]? = some answer →
        answer = ((answersIn c m.reach settings.layout packages)[k]?).getD
          (.ok .noMorePackages) := by
  have reached := reached_start settings token packages
  obtain ⟨⟨final, last⟩, n, answers, complete⟩ := reached_run (m := m) reached events
  rw [List.nil_append] at last complete
  have given : answerFor (start settings token packages).chunkSize = fun d => .ok (.package d) :=
    funext (answerFor_of_small small)
  rw [given] at answers
  constructor
  · refine ⟨last.indices, last.names, ⟨n, answers⟩, ?_, surveyed_run _ m events,
      ended_run reached events, ?_⟩
    · intro said
      rw [answers] at said
      rcases List.mem_append.1 said with found | left
      · obtain ⟨d, -, eq⟩ := List.mem_map.1 found
        cases eq
      · exact complete (List.mem_replicate.1 left).1
    · intro moment member said
      have out := spent_run reached events moment member said
      exact ⟨out.mode, by simp [currentPackage?, out.place]⟩
  · intro c faultless harmless k answer given
    have outcomes := outcome_run_of_faultless reached faultless events harmless
    rw [choices_of_outcomes outcomes, last.names] at answers
    refine eq_getD_of_prefix answers ?_ ?_ given
    · exact ((List.take_prefix _ _).filterMap _).map _
    · intro some_left
      rw [complete some_left, List.take_length]
      rfl

/-- The sample archive gives a chunked stream for the first of two packages and records for the
second, and whatever is asked in between, a session with both gives both. -/
theorem run_iterates_over_packages_of_sample :
    ({} : Settings).chunkSize < FullStream.chunkLimit ∧
    (Medium.ofContent Sample.content).Faultless Sample.content ∧
    (start {} 1 ["p", "q"]).Iterates ((start {} 1 ["p", "q"]).run (.ofContent Sample.content)
      [.nextPackage, .streamChunk .willing, .plan {}, .abort, .nextPackage, .nextPackage]) ∧
    ∀ (k : Nat) (answer : Except Misuse NextPackage),
      (answersOf ((start {} 1 ["p", "q"]).run (.ofContent Sample.content)
        [.nextPackage, .streamChunk .willing, .plan {}, .abort, .nextPackage,
          .nextPackage]))[k]? = some answer →
      answer = ((answersIn Sample.content none ({} : Settings).layout ["p", "q"])[k]?).getD
        (.ok .noMorePackages) := by
  have small : ({} : Settings).chunkSize < FullStream.chunkLimit := by decide
  have faultless := Medium.faultless_ofContent Sample.content
  obtain ⟨iterates, given⟩ := run_iterates_over_packages small 1 ["p", "q"]
    (.ofContent Sample.content)
    [.nextPackage, .streamChunk .willing, .plan {}, .abort, .nextPackage, .nextPackage]
  refine ⟨small, faultless, iterates, given Sample.content faultless ?_⟩
  intro trouble planned
  have none_planned : trouble = {} := by simpa using planned
  subst none_planned
  exact ⟨rfl, by simp, rfl, rfl, by simp⟩

/-- A look finds the full stream of the package `p`, and yet the session does not give it when
its chunks are to be larger than any buffer. -/
theorem nextPackage_withholds_stream :
    (classify ({} : Settings).layout "p" (Medium.ofContent Sample.content)).1 =
        .ok .fullStream ∧
      ((start { chunkSize := FullStream.chunkLimit } 1 ["p"]).nextPackage
        (Medium.ofContent Sample.content)).1 = .error .chunkTooLarge := by
  have found : classifyIn Sample.content none ({} : Settings).layout "p" = .ok .fullStream := by
    have no_records : (Pattern.under (({} : Settings).layout.recordsOf "p")).selects Sample.stream =
        false ∧ (Pattern.under (({} : Settings).layout.recordsOf "p")).selects Sample.record =
        false := by decide
    have stream : (Pattern.exactly (({} : Settings).layout.streamPath "p")).selects Sample.stream =
        true := by decide
    simp only [classifyIn, Sample.locateIn_content, no_records, stream, if_true, Bool.false_eq_true,
      if_false]
  obtain ⟨m, -, -, looked⟩ := classify_of_faultless
    (Medium.faultless_ofContent Sample.content) ({} : Settings).layout "p"
  have outcome : classifyIn Sample.content (Medium.ofContent Sample.content).reach
      ({} : Settings).layout "p" = .ok .fullStream := found
  rw [outcome] at looked
  refine ⟨by rw [looked], ?_⟩
  have sought := seekPackage_cons (s := start { chunkSize := FullStream.chunkLimit } 1 ["p"])
    looked 0 []
  have given : ((start { chunkSize := FullStream.chunkLimit } 1 ["p"]).nextPackage
      (Medium.ofContent Sample.content)).1 =
      ((start { chunkSize := FullStream.chunkLimit } 1 ["p"]).seekPackage
        (Medium.ofContent Sample.content) 0 ["p"]).1 := rfl
  rw [given, sought]
  rfl

end Session
end BackupRestore
