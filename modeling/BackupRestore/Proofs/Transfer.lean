/-
Module: BackupRestore.Proofs.Transfer
Purpose: The steps of a transfer of records, in their order, and the one at which it stops.
Main exports: Transfer.Step, Transfer.plan, Transfer.performAll, Transfer.Performed,
  Transfer.Received, Transfer.transferFrom_eq_performAll, Transfer.transferRecords_performs_plan
-/
import BackupRestore.Proofs.Handles

namespace BackupRestore

/-!
What a transfer does can be written down before it begins: the directory and the bytes of the
archive say which steps it takes, and with which key and value each record is handed over
(`Transfer.plan`).  A transfer performs this plan up to the first step that fails.  Failing is
all that the medium and the sink contribute: a read that succeeds brings the payload, in
however many pieces it comes.
-/

/-- Pass one call on to a sink. -/
def SinkCall.deliver {σ : Type} [RecordSink σ] (sink : σ) : SinkCall → Except IoError Unit × σ
  | .header key valueLength => RecordSink.header sink key valueLength
  | .data value => RecordSink.data sink value

namespace Transfer

/-- One step of a transfer. -/
inductive Step where
  /-- Scan on over an entry. -/
  | visit (e : Zip.Entry)
  /-- Decode the key that an entry's name ends in. -/
  | decodeKey (e : Zip.Entry)
  /-- Read the entry with this index whole. -/
  | readValue (index : Nat)
  /-- Call the sink. -/
  | call (c : SinkCall)

/-- The call to the sink that the step makes, if it makes one. -/
def Step.call? : Step → Option SinkCall
  | .call c => some c
  | .visit _ | .decodeKey _ | .readValue _ => none

/-- The steps for a record.  If its name spells no key or its data stands for nothing, the
second half is never come to. -/
def stepsFor [Zip.Codecs] (c : Content) (reach : Option Nat) (index : Nat) (e : Zip.Entry) :
    List Step :=
  let key := (KeyName.decode (Layout.lastSegment e.name)).toOption.getD []
  let value := (e.payload c reach).toOption.getD []
  [.decodeKey e, .readValue index, .call (.header key value.length), .call (.data value)]

/-- The steps for some entries, of which the first has the given place in the directory. -/
def plan [Zip.Codecs] (c : Content) (reach : Option Nat) (p : Pattern) :
    (index : Nat) → List Zip.Entry → List Step
  | _, [] => []
  | index, e :: rest =>
      .visit e :: ((if p.selects e then stepsFor c reach index e else []) ++
        plan c reach p (index + 1) rest)

section Performing

variable [Zip.Codecs] {σ : Type} [RecordSink σ]

/-- Take one step. -/
def Step.perform (a : Archive) (m : Medium) (sink : σ) :
    Step → Except RestoreError Unit × Medium × σ
  | .visit e =>
      match a.visit m e with
      | (.error cause, m) => (.error (.archive cause), m, sink)
      | (.ok _, m) => (.ok (), m, sink)
  | .decodeKey e =>
      match KeyName.decode (Layout.lastSegment e.name) with
      | .error cause => (.error cause, m, sink)
      | .ok _ => (.ok (), m, sink)
  | .readValue index =>
      match a.readEntry m index with
      | (.error cause, m) => (.error cause, m, sink)
      | (.ok _, m) => (.ok (), m, sink)
  | .call c =>
      match c.deliver sink with
      | (.error cause, sink) => (.error (.io cause), m, sink)
      | (.ok _, sink) => (.ok (), m, sink)

/-- Take steps up to the first that fails. -/
def performAll (a : Archive) (m : Medium) (sink : σ) :
    List Step → Except RestoreError Unit × Medium × σ
  | [] => (.ok (), m, sink)
  | step :: steps =>
      match step.perform a m sink with
      | (.error cause, m, sink) => (.error cause, m, sink)
      | (.ok _, m, sink) => performAll a m sink steps

/-- All of these steps succeed, one after the other. -/
inductive Performed (a : Archive) : Medium → σ → List Step → Medium → σ → Prop where
  | nil (m : Medium) (sink : σ) : Performed a m sink [] m sink
  | cons {m m₁ m' : Medium} {sink sink₁ sink' : σ} {step : Step} {steps : List Step}
      (first : step.perform a m sink = (.ok (), m₁, sink₁))
      (rest : Performed a m₁ sink₁ steps m' sink') : Performed a m sink (step :: steps) m' sink'

/-- The sink has received these calls and no others, and accepted each. -/
inductive Received : σ → List SinkCall → σ → Prop where
  | nil (sink : σ) : Received sink [] sink
  | cons {sink sink₁ sink' : σ} {c : SinkCall} {calls : List SinkCall}
      (first : c.deliver sink = (.ok (), sink₁)) (rest : Received sink₁ calls sink') :
      Received sink (c :: calls) sink'

/-! ### Steps in a row -/

theorem performAll_append (a : Archive) (m : Medium) (sink : σ) (steps later : List Step) :
    performAll a m sink (steps ++ later) =
      match performAll a m sink steps with
      | (.error cause, m, sink) => (.error cause, m, sink)
      | (.ok _, m, sink) => performAll a m sink later := by
  induction steps generalizing m sink with
  | nil => rfl
  | cons step steps ih =>
      rw [List.cons_append, performAll, performAll]
      rcases step.perform a m sink with ⟨cause | done, m₁, sink₁⟩
      · rfl
      · exact ih m₁ sink₁

/-- Taking steps up to the first failure leaves a beginning that has succeeded, and behind it
nothing, or the step that has failed. -/
theorem performAll_cases (a : Archive) (m : Medium) (sink : σ) (steps : List Step) :
    ∃ performed rest m₁ sink₁, steps = performed ++ rest ∧
      Performed a m sink performed m₁ sink₁ ∧
      ((rest = [] ∧ performAll a m sink steps = (.ok (), m₁, sink₁)) ∨
       ∃ step later cause m₂ sink₂, rest = step :: later ∧
        step.perform a m₁ sink₁ = (.error cause, m₂, sink₂) ∧
        performAll a m sink steps = (.error cause, m₂, sink₂)) := by
  induction steps generalizing m sink with
  | nil => exact ⟨[], [], m, sink, rfl, .nil m sink, Or.inl ⟨rfl, rfl⟩⟩
  | cons step steps ih =>
      generalize taken : step.perform a m sink = outcome
      obtain ⟨cause | done, m₁, sink₁⟩ := outcome
      · refine ⟨[], step :: steps, m, sink, rfl, .nil m sink, Or.inr ?_⟩
        exact ⟨step, steps, cause, m₁, sink₁, rfl, taken, by simp only [performAll, taken]⟩
      · obtain ⟨performed, rest, m₂, sink₂, split, succeeded, ending⟩ := ih m₁ sink₁
        have unrolled : performAll a m sink (step :: steps) = performAll a m₁ sink₁ steps := by
          simp only [performAll, taken]
        rw [unrolled]
        exact ⟨step :: performed, rest, m₂, sink₂, by rw [split, List.cons_append],
          .cons taken succeeded, ending⟩

/-- Taking steps comes to its end exactly if all of them succeed. -/
theorem performAll_eq_ok_iff {a : Archive} {m m' : Medium} {sink sink' : σ} {steps : List Step} :
    performAll a m sink steps = (.ok (), m', sink') ↔ Performed a m sink steps m' sink' := by
  constructor
  · intro all
    obtain ⟨performed, rest, m₁, sink₁, split, succeeded, ending⟩ :=
      performAll_cases a m sink steps
    rcases ending with ⟨done, eq⟩ | ⟨step, later, cause, m₂, sink₂, -, -, eq⟩
    · rw [eq] at all
      cases all
      rw [split, done, List.append_nil]
      exact succeeded
    · rw [eq] at all
      cases all
  · intro performed
    induction performed with
    | nil m sink => rfl
    | cons first rest ih =>
        rw [performAll, first]
        exact ih

/-- A step that is no call leaves the sink alone, and a call gives it what the step says. -/
theorem perform_sink {a : Archive} {m m' : Medium} {sink sink' : σ} {step : Step}
    {outcome : Except RestoreError Unit} (taken : step.perform a m sink = (outcome, m', sink')) :
    match step.call? with
    | none => sink' = sink
    | some c =>
        ∃ accepted, c.deliver sink = (accepted, sink') ∧ outcome = accepted.mapError .io := by
  cases step with
  | visit e =>
      simp only [Step.perform] at taken
      split at taken <;> exact (congrArg (·.2.2) taken).symm
  | decodeKey e =>
      simp only [Step.perform] at taken
      split at taken <;> exact (congrArg (·.2.2) taken).symm
  | readValue index =>
      simp only [Step.perform] at taken
      split at taken <;> exact (congrArg (·.2.2) taken).symm
  | call c =>
      simp only [Step.perform] at taken
      generalize delivered : c.deliver sink = answer at taken
      obtain ⟨cause | done, sink₁⟩ := answer
      · cases taken
        exact ⟨_, delivered, rfl⟩
      · cases taken
        exact ⟨_, delivered, rfl⟩

/-- The sink has received the calls among the steps that have succeeded. -/
theorem Performed.received {a : Archive} {m m' : Medium} {sink sink' : σ} {steps : List Step}
    (performed : Performed a m sink steps m' sink') :
    Received sink (steps.filterMap Step.call?) sink' := by
  induction performed with
  | nil m sink => exact .nil sink
  | @cons m m₁ m' sink sink₁ sink' step steps first rest ih =>
      have effect := perform_sink first
      cases call : step.call? with
      | none =>
          rw [call] at effect
          rw [List.filterMap_cons_none call, ← effect]
          exact ih
      | some c =>
          rw [call] at effect
          obtain ⟨accepted, delivered, outcome⟩ := effect
          rw [List.filterMap_cons_some call]
          rcases accepted with cause | done
          · cases outcome
          · exact .cons delivered ih

/-! ### A transfer as the performance of its plan -/

/-- Moving a record is taking its steps: the value that is read is the payload of the entry. -/
theorem transferRecord_eq_performAll {a : Archive} {index : Nat} {e : Zip.Entry}
    (here : a.directory.entries[index]? = some e) (m : Medium) (sink : σ) :
    transferRecord a m sink { index, name := e.name } =
      performAll a m sink (stepsFor a.handle.content m.reach index e) := by
  unfold transferRecord stepsFor
  cases decoded : KeyName.decode (Layout.lastSegment e.name) with
  | error cause => simp only [performAll, Step.perform, decoded]
  | ok key =>
      simp only [performAll, Step.perform, decoded]
      generalize read : a.readEntry m index = answer
      obtain ⟨cause | value, m₁⟩ := answer
      · rfl
      · have payload := (Archive.gives_of_readEntry here read).stands
        have delivered : (SinkCall.header key value.length).deliver sink =
            RecordSink.header sink key value.length := rfl
        simp only [payload, Except.toOption, Option.getD_some, delivered]
        rcases RecordSink.header sink key value.length with ⟨cause | accepted, sink₁⟩
        · rfl
        · have handed : (SinkCall.data value).deliver sink₁ = RecordSink.data sink₁ value := rfl
          simp only [handed]
          rcases RecordSink.data sink₁ value with ⟨cause | accepted, sink₂⟩ <;> rfl

/-- Going through the entries is performing the plan for them.  The induction is on the entries
that are left; the place in the directory and the number of those before go along. -/
theorem transferFrom_eq_performAll {a : Archive} {p : Pattern} {reach : Option Nat} {index : Nat}
    {remaining : List Zip.Entry} (left : a.directory.entries.toList.drop index = remaining)
    {m : Medium} (reachable : m.reach = reach) (sink : σ) (written : Nat) :
    transferFrom a p remaining.length index m sink written =
      match performAll a m sink (plan a.handle.content reach p index remaining) with
      | (.error cause, m, sink) => (.error cause, m, sink)
      | (.ok _, m, sink) => (.ok (written + (remaining.filter p.selects).length), m, sink) := by
  induction remaining generalizing index m sink written with
  | nil => rfl
  | cons e rest ih =>
      obtain ⟨here, behind⟩ := Archive.entries_of_drop left
      have reads := a.reads_visit m e
      simp only [List.length_cons, transferFrom, here, plan, performAll, Step.perform]
      generalize a.visit m e = visited at reads
      obtain ⟨cause | handle, m₁⟩ := visited
      · rfl
      · have reachable₁ : m₁.reach = reach := reads.reach.trans reachable
        simp only
        change (if p.selects e then _ else _) = _
        cases chosen : p.selects e with
        | false =>
            simp only [Bool.false_eq_true, if_false, List.nil_append, List.filter_cons, chosen]
            exact ih behind reachable₁ sink written
        | true =>
            have moving := reads_transferRecord a m₁ sink { index, name := e.name }
            have moved := transferRecord_eq_performAll here m₁ sink
            rw [reachable₁] at moved
            simp only [if_true, performAll_append, List.filter_cons, chosen, List.length_cons]
            rw [← moved]
            generalize transferRecord a m₁ sink { index, name := e.name } = outcome at moving
            obtain ⟨cause | done, m₂, sink₂⟩ := outcome
            · rfl
            · have later := ih behind (moving.reach.trans reachable₁) sink₂ (written + 1)
              rw [Nat.add_right_comm] at later
              exact later

/-- A transfer from an archive that opens performs its plan in order, up to the first step that
fails, and fails with what that step failed with.  If none fails, it gives the number of records
in the directory.  The sink has received the calls among the steps performed, and no others but
for the call at which the transfer fails. -/
theorem transferRecords_performs_plan (layout : Layout) (package : String) {m m₀ : Medium}
    {a : Archive} (opened : Archive.openOn m = (.ok a, m₀)) (sink : σ) :
    (m.content = .ok a.handle.content ∧ Zip.Directory.read a.handle.content = .ok a.directory) ∧
    ((transferRecords layout package m sink).2.1.opens = m.opens + 1 ∧
      (transferRecords layout package m sink).2.1.live = m.live) ∧
    ∃ performed rest m₁ sink₁,
      plan a.handle.content m.reach (.under (layout.recordsOf package)) 0
        a.directory.entries.toList = performed ++ rest ∧
      Performed a m₀ sink performed m₁ sink₁ ∧
      Received sink (performed.filterMap Step.call?) sink₁ ∧
      ((rest = [] ∧ transferRecords layout package m sink =
          (.ok (a.directory.entries.toList.filter
            (Pattern.under (layout.recordsOf package)).selects).length, m₁.release, sink₁)) ∨
       ∃ step later cause m₂ sink₂, rest = step :: later ∧
        step.perform a m₁ sink₁ = (.error cause, m₂, sink₂) ∧
        (step.call? = none → sink₂ = sink₁) ∧
        transferRecords layout package m sink = (.error cause, m₂.release, sink₂)) := by
  obtain ⟨opens, content, directory, reach⟩ : m₀.opens = m.opens + 1 ∧
      m.content = .ok a.handle.content ∧ Zip.Directory.read a.handle.content = .ok a.directory ∧
      m₀.reach = m.reach := by
    rcases Archive.openOn_cases m with
      ⟨e, m₁, refused, -⟩ | ⟨a₁, m₁, succeeded, leads, -, opens, content, directory⟩
    · rw [opened] at refused
      cases refused
    · rw [opened] at succeeded
      cases succeeded
      exact ⟨opens, content, directory, leads.reach⟩
  have reads := reads_transferFrom a (.under (layout.recordsOf package)) a.size 0 m₀ sink 0
  have counted : (transferRecords layout package m sink).2.1.opens = m.opens + 1 := by
    simp only [transferRecords, opened, Medium.release_opens]
    exact reads.opens.trans opens
  have simulated := transferFrom_eq_performAll (p := .under (layout.recordsOf package))
    (List.drop_zero : a.directory.entries.toList.drop 0 = _) reach sink 0
  rw [Array.length_toList] at simulated
  refine ⟨⟨content, directory⟩, ⟨counted, live_transferRecords layout package m sink⟩, ?_⟩
  obtain ⟨performed, rest, m₁, sink₁, split, succeeded, ending⟩ := performAll_cases a m₀ sink
    (plan a.handle.content m.reach (.under (layout.recordsOf package)) 0
      a.directory.entries.toList)
  refine ⟨performed, rest, m₁, sink₁, split, succeeded, succeeded.received, ?_⟩
  rcases ending with ⟨done, all⟩ | ⟨step, later, cause, m₂, sink₂, next, failed, all⟩
  · rw [all] at simulated
    refine Or.inl ⟨done, ?_⟩
    simp only [transferRecords, opened, Archive.size, simulated, Nat.zero_add]
  · rw [all] at simulated
    refine Or.inr ⟨step, later, cause, m₂, sink₂, next, failed, ?_, ?_⟩
    · intro no_call
      have effect := perform_sink failed
      rw [no_call] at effect
      exact effect
    · simp only [transferRecords, opened, Archive.size, simulated]

end Performing

/-- A log keeps the calls that it has received, in their order. -/
theorem calls_of_received {log log' : SinkLog} {calls : List SinkCall}
    (received : Received log calls log') : log'.calls = log.calls ++ calls := by
  induction received with
  | nil log => rw [List.append_nil]
  | @cons log log₁ log' c calls first rest ih =>
      have kept : log₁.calls = log.calls ++ [c] := by
        cases c with
        | header key valueLength =>
            simp only [SinkCall.deliver, RecordSink.header, SinkLog.receive] at first
            split at first
            · cases first
            · cases first
              simp [SinkLog.calls]
        | data value =>
            simp only [SinkCall.deliver, RecordSink.data, SinkLog.receive] at first
            split at first
            · cases first
            · cases first
              simp [SinkLog.calls]
      rw [ih, kept, List.append_assoc, List.singleton_append]

/-- The plan for the package `q` of the sample archive goes over two entries and hands over the
record of the second. -/
theorem plan_sample [Zip.Codecs] :
    plan Sample.content none (.under "incremental/q/") 0 [Sample.stream, Sample.record] =
      [.visit Sample.stream, .visit Sample.record, .decodeKey Sample.record, .readValue 1,
        .call (.header [107] 1), .call (.data [118])] := by
  have past : (Pattern.under "incremental/q/").selects Sample.stream = false := by decide
  have here : (Pattern.under "incremental/q/").selects Sample.record = true := by decide
  have key : KeyName.decode (Layout.lastSegment Sample.record.name) = .ok [107] := rfl
  simp only [plan, past, here, stepsFor, key, Sample.payload_record, Except.toOption,
    Option.getD_some, if_true, Bool.false_eq_true, if_false, List.nil_append, List.append_nil]
  rfl

/-- Where no read fails, each of these steps succeeds. -/
theorem performed_sample [Zip.Codecs] {m : Medium} (sound : m.delivery.Sound)
    (unbounded : m.reach = none) :
    ∃ m' log, Performed Sample.archive m SinkLog.willing
      (plan Sample.content none (.under "incremental/q/") 0 [Sample.stream, Sample.record])
      m' log := by
  obtain ⟨begins, begins', gives⟩ :
      Sample.stream.dataStart Sample.archive.handle.content m.reach = .ok 36 ∧
      Sample.record.dataStart Sample.archive.handle.content m.reach = .ok 86 ∧
      Sample.record.Gives Sample.archive.handle.content m.reach [118] := by
    rw [unbounded]
    exact ⟨Sample.dataStart_entries.1, Sample.dataStart_entries.2, Sample.gives_record⟩
  obtain ⟨d₁, sound₁, past⟩ := Archive.visit_of_sound sound Sample.archive Sample.stream
  obtain ⟨d₂, sound₂, here⟩ := Archive.visit_of_sound (m := { m with delivery := d₁ }) sound₁
    Sample.archive Sample.record
  have listed : Sample.archive.directory.entries[1]? = some Sample.record := rfl
  obtain ⟨d₃, -, read⟩ := Archive.readEntry_of_gives (m := { m with delivery := d₂ }) sound₂ listed
    gives
  have visits : Step.perform Sample.archive m SinkLog.willing (.visit Sample.stream) =
      (.ok (), { m with delivery := d₁ }, SinkLog.willing) := by
    simp only [Step.perform, past, begins, Except.map]
  have visits' : Step.perform Sample.archive { m with delivery := d₁ } SinkLog.willing
      (.visit Sample.record) = (.ok (), { m with delivery := d₂ }, SinkLog.willing) := by
    simp only [Step.perform, here, begins', Except.map]
  have reads : Step.perform Sample.archive { m with delivery := d₂ } SinkLog.willing
      (.readValue 1) = (.ok (), { m with delivery := d₃ }, SinkLog.willing) := by
    simp only [Step.perform, read]
  rw [plan_sample]
  exact ⟨_, _, .cons visits (.cons visits' (.cons rfl (.cons reads (.cons rfl
    (.cons rfl (.nil _ _))))))⟩

/-- All steps for the sample archive succeed, so the transfer gives that there is one record, and
a log has received the two calls that hand it over. -/
theorem transferRecords_performs_plan_of_sample :
    ∃ m₀ m₁ log, Archive.openOn (Medium.ofContent Sample.content) = (.ok Sample.archive, m₀) ∧
      Performed Sample.archive m₀ SinkLog.willing
        (plan Sample.content none (.under "incremental/q/") 0 [Sample.stream, Sample.record])
        m₁ log ∧
      transferRecords { incrementalDir := "incremental/", fullDir := "full/" } "q"
        (Medium.ofContent Sample.content) SinkLog.willing = (.ok 1, m₁.release, log) ∧
      log.calls = [.header [107] 1, .data [118]] ∧
      m₁.release.opens = 1 ∧ m₁.release.live = 0 := by
  obtain ⟨m₀, faultless, reach, -, opened⟩ :=
    Archive.openOn_of_faultless (Medium.faultless_ofContent Sample.content)
  rw [Sample.read_content] at opened
  have opened : Archive.openOn (.ofContent Sample.content) = (.ok Sample.archive, m₀) := opened
  obtain ⟨-, ⟨opens, live⟩, performed, rest, m₁, log, split, succeeded, received, ending⟩ :=
    transferRecords_performs_plan ⟨"incremental/", "full/"⟩ "q" opened SinkLog.willing
  have split : plan Sample.content none (.under "incremental/q/") 0
      [Sample.stream, Sample.record] = performed ++ rest := split
  rcases ending with ⟨rfl, moved⟩ | ⟨step, later, cause, m₂, log₂, rfl, failed, -⟩
  · rw [List.append_nil] at split
    subst split
    rw [plan_sample] at received
    rw [moved] at opens live
    exact ⟨m₀, m₁, log, opened, succeeded, moved, calls_of_received received, opens, live⟩
  -- No step can have failed, as taking all of them comes to its end.
  · obtain ⟨m', log', whole⟩ := performed_sample faultless.sound reach
    have taken := performAll_eq_ok_iff.2 whole
    rw [split, performAll_append, performAll_eq_ok_iff.2 succeeded] at taken
    simp only [performAll, failed] at taken
    cases taken

end Transfer
end BackupRestore
