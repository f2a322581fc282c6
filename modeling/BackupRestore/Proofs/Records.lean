/-
Module: BackupRestore.Proofs.Records
Purpose: Which records an archive holds for a package, and that a transfer hands over just these.
Main exports: Zip.Entry.Spells, Zip.Entry.record, Record.calls, Transfer.deliverAll,
  Transfer.recordsIn, Transfer.transferRecords_eq_ok, Transfer.transferRecords_of_readable,
  Transfer.transferRecords_of_none
-/
import BackupRestore.Proofs.Transfer
import BackupRestore.Record

namespace BackupRestore

/-!
An entry spells a record: its name the key, and its data the value (`Zip.Entry.Spells`).  Where
no read fails and all records of a package can be read, a transfer is nothing but the calls that
hand these records over, one after the other (`Transfer.transferRecords_of_readable`), and only
the sink can put an end to it.
-/

namespace Transfer

section Delivering

variable {σ : Type} [RecordSink σ]

/-- Pass calls on to a sink, up to the first that it refuses. -/
def deliverAll (sink : σ) : List SinkCall → Except IoError Unit × σ
  | [] => (.ok (), sink)
  | c :: calls =>
      match c.deliver sink with
      | (.error cause, sink) => (.error cause, sink)
      | (.ok _, sink) => deliverAll sink calls

theorem deliverAll_append (sink : σ) (calls later : List SinkCall) :
    deliverAll sink (calls ++ later) =
      match deliverAll sink calls with
      | (.error cause, sink) => (.error cause, sink)
      | (.ok _, sink) => deliverAll sink later := by
  induction calls generalizing sink with
  | nil => rfl
  | cons c calls ih =>
      rw [List.cons_append, deliverAll, deliverAll]
      rcases c.deliver sink with ⟨cause | done, sink₁⟩
      · rfl
      · exact ih sink₁

/-- A sink has received calls exactly if they have been passed on and it has refused none. -/
theorem received_iff {sink sink' : σ} {calls : List SinkCall} :
    Received sink calls sink' ↔ deliverAll sink calls = (.ok (), sink') := by
  constructor
  · intro received
    induction received with
    | nil sink => rfl
    | cons first rest ih =>
        rw [deliverAll, first]
        exact ih
  · intro delivered
    induction calls generalizing sink with
    | nil =>
        cases delivered
        exact .nil _
    | cons c calls ih =>
        rw [deliverAll] at delivered
        generalize first : c.deliver sink = answer at delivered
        obtain ⟨cause | done, sink₁⟩ := answer
        · cases delivered
        · exact .cons first (ih delivered)

end Delivering
end Transfer

/-! ### Entries that spell records -/

variable [Zip.Codecs]

/-- The entry's name spells the key of the record, and its data is the value. -/
structure Zip.Entry.Spells (e : Zip.Entry) (c : Content) (reach : Option Nat) (r : Record) :
    Prop where
  key : KeyName.decode (Layout.lastSegment e.name) = .ok r.key
  value : e.Gives c reach r.value

/-- The record that the entry spells, if it spells one. -/
def Zip.Entry.record (e : Zip.Entry) (c : Content) (reach : Option Nat) : Record where
  key := (KeyName.decode (Layout.lastSegment e.name)).toOption.getD []
  value := (e.payload c reach).toOption.getD []

theorem Zip.Entry.Spells.record {e : Zip.Entry} {c : Content} {reach : Option Nat} {r : Record}
    (spells : e.Spells c reach r) : e.record c reach = r := by
  simp only [Zip.Entry.record, spells.key, spells.value.stands, Except.toOption, Option.getD_some]

/-- The calls that hand a record over. -/
def Record.calls (r : Record) : List SinkCall := [.header r.key r.value.length, .data r.value]

namespace Transfer

/-- The records of the entries that fit, in their order. -/
def recordsIn (c : Content) (reach : Option Nat) (p : Pattern) (entries : List Zip.Entry) :
    List Record :=
  (entries.filter p.selects).map (·.record c reach)

/-! ### Plans of records that can be read -/

section Readable

variable {σ : Type} [RecordSink σ]

theorem calls_stepsFor (c : Content) (reach : Option Nat) (index : Nat) (e : Zip.Entry) :
    (stepsFor c reach index e).filterMap Step.call? = (e.record c reach).calls := by
  simp only [stepsFor, List.filterMap_cons, Step.call?, List.filterMap_nil, Record.calls,
    Zip.Entry.record]

/-- The calls of a plan hand over the records. -/
theorem calls_plan (c : Content) (reach : Option Nat) (p : Pattern) (index : Nat)
    (entries : List Zip.Entry) :
    (plan c reach p index entries).filterMap Step.call? =
      (recordsIn c reach p entries).flatMap Record.calls := by
  induction entries generalizing index with
  | nil => rfl
  | cons e rest ih =>
      have unseen : Step.call? (.visit e) = none := rfl
      rw [plan, List.filterMap_cons_none unseen, List.filterMap_append, ih]
      cases chosen : p.selects e with
      | false => simp [recordsIn, chosen]
      | true => simp [recordsIn, chosen, calls_stepsFor]

variable {a : Archive} {p : Pattern} {index : Nat} {e : Zip.Entry} {m : Medium}

/-- The steps for a record that can be read come down to its two calls. -/
theorem performAll_stepsFor (sound : m.delivery.Sound)
    (here : a.directory.entries[index]? = some e) {r : Record}
    (spells : e.Spells a.handle.content m.reach r) (sink : σ) :
    ∃ delivery : Delivery, delivery.Sound ∧
      performAll a m sink (stepsFor a.handle.content m.reach index e) =
        match deliverAll sink r.calls with
        | (.error cause, sink) => (.error (.io cause), { m with delivery }, sink)
        | (.ok _, sink) => (.ok (), { m with delivery }, sink) := by
  obtain ⟨d, sound', read⟩ := Archive.readEntry_of_gives sound here spells.value
  refine ⟨d, sound', ?_⟩
  simp only [stepsFor, performAll, Step.perform, spells.key, read, spells.value.stands,
    Except.toOption, Option.getD_some, Record.calls, deliverAll]
  rcases (SinkCall.header r.key r.value.length).deliver sink with ⟨cause | done, sink₁⟩
  · rfl
  · simp only
    rcases (SinkCall.data r.value).deliver sink₁ with ⟨cause | done, sink₂⟩ <;> rfl

/-- A plan whose records can be read comes down to the calls that hand them over.  The induction
is on the entries that are left; the place in the directory goes along. -/
theorem performAll_plan {remaining : List Zip.Entry}
    (left : a.directory.entries.toList.drop index = remaining) (sound : m.delivery.Sound)
    (visitable : ∀ e ∈ remaining, ∃ start, e.dataStart a.handle.content m.reach = .ok start)
    (readable : ∀ e ∈ remaining, p.selects e = true →
      ∃ r, e.Spells a.handle.content m.reach r) (sink : σ) :
    ∃ delivery : Delivery, delivery.Sound ∧
      performAll a m sink (plan a.handle.content m.reach p index remaining) =
        match deliverAll sink
            ((recordsIn a.handle.content m.reach p remaining).flatMap Record.calls) with
        | (.error cause, sink) => (.error (.io cause), { m with delivery }, sink)
        | (.ok _, sink) => (.ok (), { m with delivery }, sink) := by
  induction remaining generalizing index m sink with
  | nil => exact ⟨m.delivery, sound, rfl⟩
  | cons e rest ih =>
      obtain ⟨here, behind⟩ := Archive.entries_of_drop left
      rw [List.forall_mem_cons] at visitable readable
      obtain ⟨⟨start, begins⟩, visitable⟩ := visitable
      obtain ⟨d, sound₁, visited⟩ := Archive.visit_of_sound sound a e
      rw [begins] at visited
      have later := fun {d : Delivery} (sound' : d.Sound) (sink : σ) =>
        ih (m := { m with delivery := d }) behind sound' visitable readable.2 sink
      simp only [plan, performAll, Step.perform, visited, Except.map]
      cases chosen : p.selects e with
      | false =>
          simp only [Bool.false_eq_true, if_false, List.nil_append, recordsIn, List.filter_cons,
            chosen]
          exact later sound₁ sink
      | true =>
          obtain ⟨r, spells⟩ := readable.1 chosen
          obtain ⟨d₂, sound₂, moved⟩ := performAll_stepsFor (m := { m with delivery := d }) sound₁
            here spells sink
          simp only [if_true, performAll_append, recordsIn, List.filter_cons, chosen,
            List.map_cons, spells.record, List.flatMap_cons, deliverAll_append]
          rw [moved]
          rcases deliverAll sink r.calls with ⟨cause | done, sink₁⟩
          · exact ⟨d₂, sound₂, rfl⟩
          · exact later sound₂ sink₁

/-! ### Whole transfers -/

/-- A transfer from an archive that opens performs the plan of its records. -/
theorem transferRecords_of_openOn {m₁ : Medium} (opened : Archive.openOn m = (.ok a, m₁))
    (same : m₁.reach = m.reach) (layout : Layout) (package : String) (sink : σ) :
    transferRecords layout package m sink =
      match performAll a m₁ sink (plan a.handle.content m.reach
          (.under (layout.recordsOf package)) 0 a.directory.entries.toList) with
      | (.error cause, m₂, sink) => (.error cause, m₂.release, sink)
      | (.ok _, m₂, sink) => (.ok (recordsIn a.handle.content m.reach
          (.under (layout.recordsOf package)) a.directory.entries.toList).length,
          m₂.release, sink) := by
  have simulated := transferFrom_eq_performAll (p := .under (layout.recordsOf package))
    (List.drop_zero : a.directory.entries.toList.drop 0 = _) same sink 0
  rw [Array.length_toList] at simulated
  simp only [transferRecords, opened, Archive.size, simulated, recordsIn, List.length_map,
    Nat.zero_add]
  generalize performAll a m₁ sink _ = performed
  obtain ⟨cause | done, m₂, sink₂⟩ := performed <;> rfl

/-- A transfer that comes to its end has handed over all records that the archive holds for the
package, on whatever medium. -/
theorem transferRecords_eq_ok {layout : Layout} {package : String} {m m' : Medium}
    {sink sink' : σ} {n : Nat}
    (moved : transferRecords layout package m sink = (.ok n, m', sink')) :
    ∃ c directory records, m.content = .ok c ∧ Zip.Directory.read c = .ok directory ∧
      records = recordsIn c m.reach (.under (layout.recordsOf package))
        directory.entries.toList ∧
      n = records.length ∧
      deliverAll sink (records.flatMap Record.calls) = (.ok (), sink') := by
  rcases Archive.openOn_cases m with
    ⟨e, m₁, opened, -⟩ | ⟨a, m₁, opened, leads, -, -, content, read⟩
  · unfold transferRecords at moved
    rw [opened] at moved
    cases moved
  · rw [transferRecords_of_openOn opened leads.reach] at moved
    obtain ⟨performed, rest, m₂, sink₂, split, succeeded, ending⟩ := performAll_cases a m₁ sink
      (plan a.handle.content m.reach (.under (layout.recordsOf package)) 0
        a.directory.entries.toList)
    rcases ending with ⟨done, all⟩ | ⟨step, later, cause, m₃, sink₃, -, -, all⟩
    · rw [all] at moved
      cases moved
      have received := succeeded.received
      rw [done, List.append_nil] at split
      rw [← split, calls_plan] at received
      exact ⟨_, _, _, content, read, rfl, rfl, received_iff.1 received⟩
    · rw [all] at moved
      cases moved

/-- Where no open and no read fails and the package's records can be read, a transfer comes down
to the calls that hand them over. -/
theorem transferRecords_of_readable {c : Content} (faultless : m.Faultless c)
    {directory : Zip.Directory} (read : Zip.Directory.read c = .ok directory) {layout : Layout}
    {package : String}
    (visitable : ∀ e ∈ directory.entries.toList, ∃ start, e.dataStart c m.reach = .ok start)
    (readable : ∀ e ∈ directory.entries.toList,
      (Pattern.under (layout.recordsOf package)).selects e = true →
        ∃ r, e.Spells c m.reach r)
    {records : List Record}
    (held : records = recordsIn c m.reach (.under (layout.recordsOf package))
      directory.entries.toList) (sink : σ) :
    ∃ m', transferRecords layout package m sink =
      match deliverAll sink (records.flatMap Record.calls) with
      | (.error cause, sink) => (.error (.io cause), m', sink)
      | (.ok _, sink) => (.ok records.length, m', sink) := by
  obtain ⟨m₁, faultless₁, reach, -, opened⟩ := Archive.openOn_of_faultless faultless
  rw [read] at opened
  rw [transferRecords_of_openOn opened reach, held]
  rw [← reach] at visitable readable ⊢
  obtain ⟨d, -, performed⟩ := performAll_plan (a := { directory, handle := { content := c } })
    List.drop_zero faultless₁.sound visitable readable sink
  rw [performed]
  refine ⟨({ m₁ with delivery := d } : Medium).release, ?_⟩
  simp only
  generalize deliverAll sink _ = delivered
  obtain ⟨cause | done, sink₁⟩ := delivered <;> rfl

/-- Where a lookup finds no record, a transfer ends well and does not touch the sink. -/
theorem transferRecords_of_none {c : Content} (faultless : m.Faultless c) {layout : Layout}
    {package : String}
    (nothing : locateIn c m.reach (.under (layout.recordsOf package)) = .ok none) (sink : σ) :
    ∃ m', transferRecords layout package m sink = (.ok 0, m', sink) := by
  obtain ⟨directory, read, passed⟩ := locateIn_eq_none_iff.1 nothing
  have none_held : recordsIn c m.reach (.under (layout.recordsOf package))
      directory.entries.toList = [] := by
    rw [recordsIn, List.filter_eq_nil_iff.2 fun e member => by simp [(passed e member).2],
      List.map_nil]
  refine transferRecords_of_readable faultless read (fun e member => (passed e member).1) ?_
    none_held.symm sink
  intro e member selected
  rw [(passed e member).2] at selected
  cases selected

end Readable
end Transfer
end BackupRestore
