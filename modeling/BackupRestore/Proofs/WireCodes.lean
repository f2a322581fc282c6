/-
Module: BackupRestore.Proofs.WireCodes
Purpose: Whatever state a transport is in, the numbers that its host gets tell what a call has done.
Main exports: Session.BegunWith, Transport.Configured, Transport.ChunkTold, Transport.Streams,
  Transport.PackageTold, Transfer.Completed, Transport.RecordsTold, Transport.codes_tell_host
-/
import BackupRestore.Proofs.ChunkCodes
import BackupRestore.Proofs.Coherence
import BackupRestore.Proofs.Holdings
import BackupRestore.Proofs.Restart

namespace BackupRestore

/-!
What a call for a chunk tells is a fact about the stream that it is made on
(`FullStream.Moment.CodeTells`), and what the codes of a stream add up to is a fact about the run of
that stream (`FullStream.sum_codesOf`).  Here both are carried over to the calls of a transport.
For that it has to be known of its session, wherever it is found, that its stream has the chunks of
the settings and is looked up by their layout (`Session.BegunWith`); and that, until the host leaves
a package, what it does with the transport is a run of the package's stream (`Transport.Streams`).

With records it is simpler.  A transfer performs its plan to the end or breaks off, and every error
at which it breaks off is reported as one.
-/

/-! ### Sessions of a transport -/

/-- The session was begun with these settings, and has been used since. -/
structure Session.BegunWith (settings : Settings) (s : Session) : Prop where
  coherent : s.Coherent
  reached : ∃ token packages seen, Session.Reached (.start settings token packages) s seen

namespace Session

variable {settings : Settings} {s : Session}

theorem begunWith_start (settings : Settings) (token : Nat) (packages : List String) :
    (start settings token packages).BegunWith settings :=
  ⟨coherent_start settings token packages, token, packages, [],
    reached_start settings token packages⟩

theorem BegunWith.perform [Zip.Codecs] (begun : s.BegunWith settings) (m : Medium) (event : Event) :
    (s.perform m event).session.BegunWith settings := by
  obtain ⟨token, packages, seen, reached⟩ := begun.reached
  exact ⟨coherent_perform begun.coherent m event, token, packages, _,
    (reached_perform (m := m) reached event).1⟩

theorem BegunWith.layout (begun : s.BegunWith settings) : s.layout = settings.layout := by
  obtain ⟨token, packages, seen, reached⟩ := begun.reached
  exact reached.layout

theorem BegunWith.chunkSize (begun : s.BegunWith settings) :
    s.chunkSize = settings.chunkSize := by
  obtain ⟨token, packages, seen, reached⟩ := begun.reached
  exact reached.chunkSize

/-- A search that ends at a full stream has prepared it. -/
theorem seekPackage_of_stream {s' : Session} (none_left : s.stream = none) {m m' : Medium}
    {index : Nat} {remaining : List String} {d : PackageDescription}
    (sought : s.seekPackage m index remaining = (.ok (.package d), s', m'))
    (full : d.mode = .fullStream) :
    s'.mode = .fullStream ∧
      s'.stream = some { package := d.package, chunkSize := s.chunkSize } := by
  induction remaining generalizing s m index with
  | nil => cases sought
  | cons package rest ih =>
      generalize probed : classify s.layout package m = answer at sought
      obtain ⟨outcome, m₁⟩ := answer
      rw [seekPackage_cons probed] at sought
      cases choice : choiceOf package outcome with
      | none =>
          rw [choice] at sought
          exact ih (s := { s with place := .at index }) none_left sought
      | some chosen =>
          rw [choice] at sought
          obtain ⟨stream, answered⟩ := s.choose_eq index chosen
          have left := choose_of_no_stream none_left index chosen.package chosen.mode
          simp only [Prod.mk.injEq] at sought
          obtain ⟨given, rfl, -⟩ := sought
          rw [answered, answerFor] at given
          split at given
          · cases given
          · rename_i small
            cases given
            rw [left, full]
            simp only [full, true_and, Nat.not_le] at small
            simp only [small, and_self, if_true]

theorem nextPackage_of_stream {s' : Session} {m m' : Medium} {d : PackageDescription}
    (given : s.nextPackage m = (.ok (.package d), s', m')) (full : d.mode = .fullStream) :
    s'.mode = .fullStream ∧
      s'.stream = some { package := d.package, chunkSize := s.chunkSize } := by
  have dropped := s.session_dropStream m
  unfold nextPackage at given
  generalize s.dropStream m = result at dropped given
  obtain ⟨s₁, m₁⟩ := result
  simp only at dropped given
  subst dropped
  split at given
  · cases given
  · exact seekPackage_of_stream (s := { s with stream := none }) rfl given full

/-- A transfer of records is a misuse, and changes nothing, or is one for the chosen package. -/
theorem transferKeyValue_cases [Zip.Codecs] {σ : Type} [RecordSink σ] (s : Session) (m : Medium)
    (sink : σ) :
    (∃ misuse, s.transferKeyValue m sink = (.error misuse, m, sink)) ∨
    ∃ package answer m' sink', s.mode = .keyValue ∧ s.currentPackage? = some package ∧
      transferRecords s.layout package m sink = (answer, m', sink') ∧
      s.transferKeyValue m sink = (.ok (answer.mapError (.transfer package)), m', sink') := by
  unfold transferKeyValue
  cases current : s.currentPackage? with
  | none => exact Or.inl ⟨_, rfl⟩
  | some package =>
      simp only
      by_cases records : s.mode = .keyValue
      · rw [if_neg (not_not_intro records)]
        rcases moved : transferRecords s.layout package m sink with ⟨e | n, m', sink'⟩
        · exact Or.inr ⟨package, _, m', sink', records, rfl, moved, rfl⟩
        · exact Or.inr ⟨package, _, m', sink', records, rfl, moved, rfl⟩
      · rw [if_pos records]
        exact Or.inl ⟨_, rfl⟩

end Session

namespace Transport

/-- The transport has these settings, and its session was begun with them. -/
structure Configured (settings : Settings) (t : Transport) : Prop where
  session : ∀ session ∈ t.session, session.BegunWith settings
  settings : t.settings = settings

section States

variable [Zip.Codecs] {settings : Settings} {t : Transport}

theorem Configured.passage (configured : t.Configured settings) {t' : Transport} {m m' : Medium}
    (passage : t.Passage m t' m') : t'.Configured settings := by
  cases passage with
  | aside unbegun => exact configured
  | replaced fresh =>
      refine ⟨?_, configured.settings⟩
      rintro s held
      rcases fresh with rfl | ⟨token, packages, rfl⟩
      · cases held
      · cases held
        rw [configured.settings]
        exact Session.begunWith_start settings token packages
  | @passed s event begun unplanned =>
      refine ⟨?_, configured.settings⟩
      rintro _ ⟨⟩
      exact (configured.session s begun).perform m event
  | planned trouble => exact configured

theorem Configured.perform (configured : t.Configured settings) (m : Medium) (event : Event) :
    (t.perform m event).transport.Configured settings :=
  configured.passage (t.passage_perform m event)

theorem configured_behind (created : create settings = .ok t) (m : Medium)
    (events : List Event) : (t.behind m events).1.Configured settings := by
  have fresh := session_of_create created
  subst fresh
  have configured : Configured settings { settings } := ⟨nofun, rfl⟩
  exact behind_induction (fun t _ => t.Configured settings)
    (fun _ m event kept => kept.perform m event) configured events

end States

/-! ### Calls for chunks -/

/-- What the host learns from a call for a chunk: the call is a misuse and nothing has been done, or
the code of its answer tells what has become of the stream and what its output has got. -/
inductive ChunkTold (settings : Settings) (t : Transport) (m : Medium) (o : Output) : Prop where
  | misused {misuse : Misuse} (unchanged : t.streamChunk m o = (.error misuse, t, m, o))
  | told {stream : FullStream} {answer : Except Status ChunkResult} {t' : Transport} {m' : Medium}
      {o' : Output} (held : t.stream? = some stream)
      (called : t.streamChunk m o = (.ok answer, t', m', o'))
      (left : t'.stream? = some (stream.perform settings.layout m (.nextChunk o)).stream)
      (taken : o'.taken = o.taken ++ (stream.perform settings.layout m (.nextChunk o)).written)
      (tells : (stream.perform settings.layout m (.nextChunk o)).CodeTells settings.layout
        settings.chunkSize (chunkCode answer))

/-- A session with a stream passes a call for a chunk on to it. -/
theorem streamChunk_of_stream {t : Transport} {m m' : Medium} {o o' : Output} {s : Session}
    {stream stream' : FullStream} {answer : Except RestoreError ChunkResult}
    (begun : t.session = some s) (full : s.mode = .fullStream) (held : s.stream = some stream)
    (called : stream.nextChunk s.layout m o = (answer, stream', m', o')) :
    t.streamChunk m o = (.ok (answer.mapError RestoreError.status),
      { t with session := some { s with stream := some stream' } }, m', o') := by
  unfold streamChunk Session.streamChunk
  simp only [begun, full, held, called, ne_eq, not_true_eq_false, if_false]
  cases answer <;> rfl

/-- Without a stream, a call for a chunk is a misuse and changes nothing. -/
theorem streamChunk_cases (t : Transport) (m : Medium) (o : Output) :
    (∃ misuse, t.streamChunk m o = (.error misuse, t, m, o)) ∨
    ∃ s stream, t.session = some s ∧ s.mode = .fullStream ∧ s.stream = some stream := by
  unfold streamChunk
  obtain ⟨settings, session⟩ := t
  cases session with
  | none => exact Or.inl ⟨_, rfl⟩
  | some s =>
      simp only [Session.streamChunk]
      by_cases full : s.mode = .fullStream
      · cases held : s.stream with
        | none => simp [full]
        | some stream => exact Or.inr ⟨s, stream, rfl, full, held⟩
      · simp [full]

theorem Configured.chunkTold {settings : Settings} {t : Transport}
    (configured : t.Configured settings) (m : Medium) (o : Output) :
    ChunkTold settings t m o := by
  rcases t.streamChunk_cases m o with ⟨misuse, eq⟩ | ⟨s, stream, begun, full, held⟩
  · exact .misused eq
  · have used := configured.session s begun
    have size := (used.coherent.belongs stream held).2.trans used.chunkSize
    generalize called : stream.nextChunk s.layout m o = result
    obtain ⟨answer, stream', m', o'⟩ := result
    have eq := streamChunk_of_stream begun full held called
    rw [used.layout] at called
    have moment := FullStream.perform_nextChunk called
    have appends := (FullStream.course_nextChunk called).appends
    obtain ⟨call, made, tells⟩ := stream.codeTells_nextChunk settings.layout m o
    have code : call.code = chunkCode (answer.mapError RestoreError.status) := by
      rw [moment] at made
      cases made
      rfl
    rw [size, code] at tells
    refine .told ?_ eq ?_ ?_ tells
    · rw [stream?, begun, Option.bind_some, held]
    · rw [moment]
      rfl
    · rw [moment]
      exact List.prefix_iff_eq_append.1 appends |>.symm

/-! ### The codes of a package -/

/-- What the event is to the stream of the package that the host is at. -/
def Event.ofStream? : Event → Option FullStream.Event
  | .streamChunk o => some (.nextChunk o)
  | .abort => some .abort
  | .plan trouble => some (.plan trouble)
  | _ => none

/-- The host stays with the package that it is at. -/
def Event.isWithin : Event → Bool
  | .start _ _ | .nextPackage | .finish => false
  | _ => true

/-- The wire code that the host has got. -/
def Sight.code? (sight : Sight) : Option Int :=
  match sight.answer with
  | .chunk (.ok answer) => some (chunkCode answer)
  | _ => none

/-- What the output of a call for a chunk has taken in it. -/
def Sight.written (sight : Sight) : List UInt8 :=
  match sight with
  | { event := .streamChunk o, returned := o', .. } => o'.taken.drop o.taken.length
  | _ => []

/-- The transport is at a package with this stream. -/
structure Streams (settings : Settings) (stream : FullStream) (t : Transport) : Prop where
  configured : t.Configured settings
  session : ∃ s, t.session = some s ∧ s.mode = .fullStream ∧ s.stream = some stream

/-- The event is to the transport what it is to the stream. -/
structure Follows [Zip.Codecs] (settings : Settings) (moment : FullStream.Moment) (t : Transport)
    (m : Medium) (event : Event) : Prop where
  streams : (t.perform m event).transport.Streams settings moment.stream
  medium : (t.perform m event).medium = moment.medium
  code : (t.sight m event).code? = moment.code?
  written : (t.sight m event).written = moment.written

section Packages

variable {settings : Settings} {stream : FullStream} {t : Transport} {m : Medium}

theorem Streams.stream? (streams : t.Streams settings stream) : t.stream? = some stream := by
  obtain ⟨s, begun, -, held⟩ := streams.session
  rw [Transport.stream?, begun, Option.bind_some, held]

variable [Zip.Codecs]

/-- Events that concern the stream do with it what they do with one that is alone. -/
theorem Streams.follows (streams : t.Streams settings stream) (m : Medium) {event : Event}
    {own : FullStream.Event} (concerns : event.ofStream? = some own) :
    Follows settings (stream.perform settings.layout m own) t m event := by
  obtain ⟨s, begun, full, held⟩ := streams.session
  have used := streams.configured.session s begun
  have configured := streams.configured.perform m event
  cases event with
  | streamChunk o =>
      cases concerns
      generalize called : stream.nextChunk s.layout m o = result
      obtain ⟨answer, stream', m', o'⟩ := result
      have eq := streamChunk_of_stream begun full held called
      rw [used.layout] at called
      rw [FullStream.perform_nextChunk called]
      refine ⟨⟨configured, ?_⟩, ?_, ?_, ?_⟩
      · simp only [perform, eq]
        exact ⟨_, rfl, full, rfl⟩
      · simp only [perform, eq]
      · simp only [sight, perform, eq]
        rfl
      · simp only [Sight.written, sight, returned, eq]
        rfl
  | abort =>
      cases concerns
      have ended : t.perform m .abort =
          { answer := .status .ok
            transport :=
              { t with session := some { s with stream := some (stream.abort m).1 } }
            medium := (stream.abort m).2 } := by
        simp only [perform, abort, begun, Session.abort, held]
      refine ⟨⟨configured, ?_⟩, ?_, ?_, rfl⟩
      · rw [ended]
        exact ⟨_, rfl, full, rfl⟩
      · rw [ended]
        rfl
      · rw [sight, ended]
        rfl
  | plan trouble =>
      cases concerns
      exact ⟨streams, rfl, rfl, rfl⟩
  | start token packages => cases concerns
  | nextPackage => cases concerns
  | transferKeyValue sink => cases concerns
  | finish => cases concerns

/-- The other events within a package are transfers of records.  They are misuses. -/
theorem Streams.idle (streams : t.Streams settings stream) (m : Medium) {event : Event}
    (within : event.isWithin = true) (unconcerned : event.ofStream? = none) :
    (t.perform m event).transport = t ∧ (t.perform m event).medium = m ∧
      (t.sight m event).code? = none ∧ (t.sight m event).written = [] := by
  obtain ⟨s, begun, full, held⟩ := streams.session
  cases event with
  | transferKeyValue sink =>
      have other : s.mode ≠ .keyValue := by
        rw [full]
        decide
      have used := streams.configured.session s begun
      obtain ⟨misuse, refused⟩ := used.coherent.guarded.records_refused m sink other
      have eq : t.transferKeyValue m sink = (.error misuse, m, sink) := by
        simp only [transferKeyValue, begun, refused]
      refine ⟨rfl, ?_, rfl, rfl⟩
      simp only [perform, eq]
  | streamChunk o => cases unconcerned
  | abort => cases unconcerned
  | plan trouble => cases unconcerned
  | start token packages => cases within
  | nextPackage => cases within
  | finish => cases within

/-- What the host does until it leaves the package is a run of the package's stream. -/
theorem Streams.run (streams : t.Streams settings stream) (m : Medium) {later : List Event}
    (within : ∀ event ∈ later, event.isWithin = true) :
    let h := stream.run settings.layout m (later.filterMap Event.ofStream?)
    (t.behind m later).1.stream? = some h.stream ∧
      (t.sights m later).filterMap Sight.code? = FullStream.codesOf h.moments ∧
      (t.sights m later).flatMap Sight.written = FullStream.takenOf h.moments := by
  induction later generalizing t m stream with
  | nil => exact ⟨streams.stream?, rfl, rfl⟩
  | cons event later ih =>
      rw [List.forall_mem_cons] at within
      cases concerns : event.ofStream? with
      | none =>
          obtain ⟨same, medium, code, written⟩ := streams.idle m within.1 concerns
          rw [List.filterMap_cons_none concerns]
          simp only [behind, sights, same, medium, List.filterMap_cons, code, List.flatMap_cons,
            written, List.nil_append]
          exact ih streams m within.2
      | some own =>
          have follows := streams.follows m concerns
          have further := ih follows.streams (t.perform m event).medium within.2
          rw [follows.medium] at further
          obtain ⟨left, codes, written⟩ := further
          rw [List.filterMap_cons_some concerns]
          simp only [behind, sights, follows.medium, FullStream.run, List.filterMap_cons,
            List.flatMap_cons, follows.code, follows.written, FullStream.codesOf,
            FullStream.takenOf] at codes written ⊢
          rw [codes, written]
          exact ⟨left, rfl, rfl⟩

theorem perform_nextPackage {t t' : Transport} {m m' : Medium}
    {answer : Except Misuse NextPackage} (given : t.nextPackage m = (answer, t', m')) :
    t.perform m .nextPackage = { answer := .package answer, transport := t', medium := m' } := by
  simp only [perform, given]

/-- Where the host is given a package with a full stream, the transport is at its beginning. -/
theorem Configured.streams (configured : t.Configured settings) {t' : Transport} {m' : Medium}
    {d : PackageDescription} (given : t.nextPackage m = (.ok (.package d), t', m'))
    (full : d.mode = .fullStream) :
    t'.Streams settings { package := d.package, chunkSize := settings.chunkSize } := by
  have kept := configured.perform m .nextPackage
  rw [perform_nextPackage given] at kept
  refine ⟨kept, ?_⟩
  unfold nextPackage at given
  cases begun : t.session with
  | none =>
      rw [begun] at given
      cases given
  | some s =>
      simp only [begun] at given
      generalize called : s.nextPackage m = result at given
      obtain ⟨answer, s', m₁⟩ := result
      cases given
      have prepared := Session.nextPackage_of_stream called full
      rw [(configured.session s begun).chunkSize] at prepared
      exact ⟨s', rfl, prepared⟩

/-- The run of a package's stream that the host makes with what it does at the package. -/
def packageRun (settings : Settings) (package : String) (m : Medium) (later : List Event) :
    FullStream.History :=
  ({ package, chunkSize := settings.chunkSize } : FullStream).run settings.layout m
    (later.filterMap Event.ofStream?)

/-- What the codes say of a package with a full stream, from where it is given to the host until
the host leaves it. -/
structure PackageTold (settings : Settings) (package : String) (t : Transport) (m : Medium)
    (later : List Event) : Prop where
  stream : t.stream? = some { package, chunkSize := settings.chunkSize }
  /-- The codes, the bytes that outputs have taken and the stream are those of a run of the stream
  alone. -/
  codes : (t.sights m later).filterMap Sight.code? =
    FullStream.codesOf (packageRun settings package m later).moments
  written : (t.sights m later).flatMap Sight.written =
    FullStream.takenOf (packageRun settings package m later).moments
  left : (t.behind m later).1.stream? = some (packageRun settings package m later).stream
  /-- What is delivered is a beginning of the package's data. -/
  delivers : ∃ payload, (∀ cursor, FullStream.OpensAt package settings.layout m cursor →
      cursor.Whole payload) ∧
    FullStream.DeliversBeginning settings.layout payload settings.chunkSize
      (packageRun settings package m later)
  /-- The positive codes add up to how much has been delivered. -/
  sum : settings.chunkSize ≤ maxWireCode →
    (((t.sights m later).filterMap Sight.code?).filter (0 < ·)).sum =
      ((packageRun settings package m later).stream.streamed : Int)

theorem Streams.packageTold {package : String}
    (streams : t.Streams settings { package, chunkSize := settings.chunkSize }) (m : Medium)
    {later : List Event} (within : ∀ event ∈ later, event.isWithin = true) :
    PackageTold settings package t m later := by
  obtain ⟨left, codes, written⟩ := streams.run m within
  obtain ⟨payload, whole⟩ := FullStream.exists_payload package settings.layout m
  have delivers := FullStream.deliversBeginning_of_whole whole settings.chunkSize
    (later.filterMap Event.ofStream?)
  refine ⟨streams.stream?, codes, written, left, ⟨payload, whole, delivers⟩, ?_⟩
  intro fits
  have sum := FullStream.sum_codesOf (s := { package, chunkSize := settings.chunkSize }) fits
    settings.layout m (later.filterMap Event.ofStream?)
  rw [codes, packageRun, delivers.counted]
  exact sum

end Packages

end Transport

/-! ### The status of a transfer -/

namespace Transfer

variable [Zip.Codecs] {σ : Type} [RecordSink σ] {layout : Layout} {package : String}
  {m m' : Medium} {sink sink' : σ}

/-- The scan has come to the end of the directory, and the sink has accepted the header and the
data of every record of the package. -/
def Completed (layout : Layout) (package : String) (m : Medium) (sink sink' : σ) : Prop :=
  ∃ a m₀ m₁, Archive.openOn m = (.ok a, m₀) ∧
    Performed a m₀ sink (plan a.handle.content m.reach (.under (layout.recordsOf package)) 0
      a.directory.entries.toList) m₁ sink'

/-- A transfer ends well exactly if it is completed. -/
theorem transferRecords_ok_iff (layout : Layout) (package : String) (m : Medium) (sink sink' : σ) :
    (∃ n m', transferRecords layout package m sink = (.ok n, m', sink')) ↔
      Completed layout package m sink sink' := by
  rcases Archive.openOn_cases m with
    ⟨e, m₀, opened, -⟩ | ⟨a, m₀, opened, leads, -⟩
  · constructor
    · rintro ⟨n, m', moved⟩
      simp only [transferRecords, opened] at moved
      cases moved
    · rintro ⟨a, m₁, m₂, opened', -⟩
      rw [opened] at opened'
      cases opened'
  · rw [transferRecords_of_openOn opened leads.reach]
    constructor
    · rintro ⟨n, m', moved⟩
      split at moved
      · cases moved
      · rename_i done m₁ sink₁ performed
        cases moved
        exact ⟨a, m₀, m₁, opened, performAll_eq_ok_iff.1 performed⟩
    · rintro ⟨a', m₁, m₂, opened', performed⟩
      rw [opened] at opened'
      cases opened'
      rw [performAll_eq_ok_iff.2 performed]
      exact ⟨_, _, rfl⟩

/-- The sink has received the header and the data of every record that the archive lists for the
package, in their order and nothing else, and has accepted each. -/
def HandedOver (layout : Layout) (package : String) (m : Medium) (sink sink' : σ) : Prop :=
  ∃ c directory, m.content = .ok c ∧ Zip.Directory.read c = .ok directory ∧
    Received sink ((recordsIn c m.reach (.under (layout.recordsOf package))
      directory.entries.toList).flatMap Record.calls) sink'

/-- One of the package's records is encrypted. -/
def HoldsEncrypted (layout : Layout) (package : String) (m : Medium) : Prop :=
  ∃ c directory, m.content = .ok c ∧ Zip.Directory.read c = .ok directory ∧
    ∃ e ∈ directory.entries.toList, (Pattern.under (layout.recordsOf package)).selects e = true ∧
      e.isEncrypted = true

theorem Completed.handedOver (completed : Completed layout package m sink sink') :
    HandedOver layout package m sink sink' := by
  obtain ⟨a, m₀, m₁, opened, performed⟩ := completed
  obtain ⟨content, read, -⟩ := Archive.openOn_eq_ok opened
  have received := performed.received
  rw [calls_plan] at received
  exact ⟨_, _, content, read, received⟩

/-- A record that is encrypted cannot be read, and so not be moved. -/
theorem Completed.not_holdsEncrypted (completed : Completed layout package m sink sink') :
    ¬HoldsEncrypted layout package m := by
  obtain ⟨a, m₀, m₁, opened, performed⟩ := completed
  obtain ⟨content, read, reach⟩ := Archive.openOn_eq_ok opened
  have readable := readable_of_performed List.drop_zero reach performed
  rintro ⟨c, directory, content', read', e, member, selected, encrypted⟩
  rw [content] at content'
  cases content'
  rw [read] at read'
  cases read'
  obtain ⟨r, spells⟩ := (readable e member).2 selected
  rw [spells.value.plain] at encrypted
  cases encrypted

end Transfer

namespace Transport

variable {settings : Settings} {t : Transport}

/-- What the host learns from a transfer of records: the call is a misuse and nothing has been done,
or its status tells whether the transfer has been completed. -/
inductive RecordsTold [Zip.Codecs] {σ : Type} [RecordSink σ] (settings : Settings)
    (t : Transport) (m : Medium) (sink : σ) : Prop where
  | misused {misuse : Misuse} (unchanged : t.transferKeyValue m sink = (.error misuse, m, sink))
  | told {s : Session} {package : String} {status : Status} {m' : Medium} {sink' : σ}
      (begun : t.session = some s) (current : s.currentPackage? = some package)
      (called : t.transferKeyValue m sink = (.ok status, m', sink'))
      (completed : status = .ok ↔ Transfer.Completed settings.layout package m sink sink')
      (handed : status = .ok → Transfer.HandedOver settings.layout package m sink sink')
      (otherwise : status ≠ .ok → status = .error)
      (encrypted : Transfer.HoldsEncrypted settings.layout package m → status = .error)

theorem Configured.recordsTold [Zip.Codecs] {σ : Type} [RecordSink σ]
    (configured : t.Configured settings) (m : Medium) (sink : σ) :
    RecordsTold settings t m sink := by
  cases begun : t.session with
  | none => exact .misused (by rw [transferKeyValue, begun])
  | some s =>
      have used := configured.session s begun
      rcases s.transferKeyValue_cases m sink with
        ⟨misuse, eq⟩ | ⟨package, answer, m', sink', -, current, moved, eq⟩
      · have refused : t.transferKeyValue m sink = (.error misuse, m, sink) := by
          simp only [transferKeyValue, begun, eq]
        exact .misused refused
      · rw [used.layout] at moved
        have decides := Transfer.transferRecords_ok_iff settings.layout package m sink sink'
        rw [moved] at decides
        cases answer with
        | error e =>
            have uncompleted : ¬Transfer.Completed settings.layout package m sink sink' := by
              intro completed
              obtain ⟨n, m₁, eq⟩ := decides.2 completed
              cases eq
            have called : t.transferKeyValue m sink = (.ok .error, m', sink') := by
              simp only [transferKeyValue, begun, eq]
              rfl
            have failed : Status.error ≠ .ok := by decide
            exact .told begun current called
              ⟨fun ok => absurd ok failed, fun completed => absurd completed uncompleted⟩
              (fun ok => absurd ok failed) (fun _ => rfl) (fun _ => rfl)
        | ok n =>
            have completed := decides.1 ⟨n, m', rfl⟩
            have called : t.transferKeyValue m sink = (.ok .ok, m', sink') := by
              simp only [transferKeyValue, begun, eq]
              rfl
            exact .told begun current called ⟨fun _ => completed, fun _ => rfl⟩
              (fun _ => completed.handedOver) (fun failed => absurd rfl failed)
              (fun encrypted => absurd encrypted completed.not_holdsEncrypted)

/-! ### Everything that the host is told -/

/-- Whatever the host calls next, the number that it gets tells what has happened. -/
structure TellsHost [Zip.Codecs] (settings : Settings) (t : Transport) (m : Medium) : Prop where
  chunks : ∀ o, ChunkTold settings t m o
  packages : ∀ {t' m'} {d : PackageDescription}, t.nextPackage m = (.ok (.package d), t', m') →
    d.mode = .fullStream → ∀ later : List Event, (∀ event ∈ later, event.isWithin = true) →
      PackageTold settings d.package t' m' later
  records : ∀ {σ : Type} [RecordSink σ] (sink : σ), RecordsTold settings t m sink

/-- Behind any calls, whatever fails, the codes that the host gets for chunks and for records tell
what the calls have done. -/
theorem codes_tell_host [Zip.Codecs] (created : create settings = .ok t) (m : Medium)
    (earlier : List Event) :
    TellsHost settings (t.behind m earlier).1 (t.behind m earlier).2 := by
  have configured := configured_behind created m earlier
  refine ⟨configured.chunkTold _, ?_, fun sink => configured.recordsTold _ sink⟩
  intro t' m' d given full later within
  exact (configured.streams given full).packageTold m' within

/-- In the middle of the stream of the sample archive. -/
theorem codes_tell_host_of_sample :
    create {} = .ok { settings := {} } ∧
    TellsHost {}
      (behind { settings := {} } (Medium.ofContent Sample.content)
        [.start 1 ["p", "q"], .nextPackage, .streamChunk .willing]).1
      (behind { settings := {} } (Medium.ofContent Sample.content)
        [.start 1 ["p", "q"], .nextPackage, .streamChunk .willing]).2 := by
  have created : create {} = .ok { settings := {} } := rfl
  exact ⟨created, codes_tell_host created (.ofContent Sample.content) _⟩

end Transport

/-! ### A chunk of which a part is refused -/

namespace Sample

/-- An output that takes one byte and then refuses whatever is offered. -/
def oneByte : Output where
  onWrite call _ _ := if call = 0 then .ok 1 else .error (.external .brokenPipe "reader closed")
  onFlush _ := none

/-- Of four bytes it takes the first. -/
theorem writeAll_oneByte :
    oneByte.writeAll [100, 97, 116, 97] =
      (.error (.external .brokenPipe "reader closed"),
        { oneByte with writes := 2, count := 1, latestFirst := [100] }) := by
  have first : oneByte.write [100, 97, 116, 97] =
      (.ok 1, { oneByte with writes := 1, count := 1, latestFirst := [100] }) := rfl
  have second : ({ oneByte with writes := 1, count := 1, latestFirst := [100] } : Output).write
      [97, 116, 97] = (.error (.external .brokenPipe "reader closed"),
        { oneByte with writes := 2, count := 1, latestFirst := [100] }) := rfl
  rw [Output.writeAll, first]
  simp only [List.drop_zero]
  rw [Output.writeAll, second]

/-- The stream of the archive is opened in front of its data. -/
theorem openCursor_stream {m : Medium} (faultless : m.Faultless content) (within : m.reach = none)
    (size : Nat) :
    ∃ cursor m', ({ package := "p", chunkSize := size } : FullStream).openCursor layout m =
        (.ok cursor, m') ∧
      m'.Faultless content ∧ cursor.Holds [100, 97, 116, 97] := by
  have fits : (Pattern.exactly (layout.streamPath "p")).selects stream = true := by decide
  obtain ⟨m₁, faultless₁, reach, -, located⟩ :=
    locate_of_faultless faultless (.exactly (layout.streamPath "p"))
  rw [within] at reach located
  rw [locateIn_content, if_pos fits] at located
  have stands : stream.payload archive.handle.content m₁.reach = .ok [100, 97, 116, 97] := by
    rw [reach]
    exact payload_stream
  obtain ⟨cursor, m₂, into, reads, holds⟩ : ∃ cursor m₂,
      archive.intoCursor m₁ { index := 0, name := stream.name } = (.ok cursor, m₂) ∧
        m₁.ReadsTo m₂ ∧ cursor.Holds [100, 97, 116, 97] :=
    Archive.intoCursor_of_sound faultless₁.sound rfl rfl rfl stands
  refine ⟨cursor, m₂, ?_, reads.leadsTo.faultless content faultless₁, holds⟩
  simp only [FullStream.openCursor, located, into]

end Sample

namespace Transport

/-- An output that takes the first byte of a chunk and refuses the rest has got a byte that no code
tells of: the call that has written it is answered with the code of a failure. -/
theorem chunkCode_hides_part_of_chunk :
    create {} = .ok { settings := {} } ∧
    ∃ t m answer t' m' o',
      behind { settings := {} } (Medium.ofContent Sample.content)
        [.start 1 ["p"], .nextPackage] = (t, m) ∧
      t.streamChunk m Sample.oneByte = (.ok answer, t', m', o') ∧
      o'.taken = [100] ∧ chunkCode answer = -1000 ∧
      ¬(0 < chunkCode answer ↔ o'.taken ≠ Sample.oneByte.taken) := by
  have faultless := Medium.faultless_ofContent Sample.content
  obtain ⟨m₁, faultless₁, reach, looked⟩ :=
    classify_of_faultless faultless ({} : Settings).layout "p"
  have found : classifyIn Sample.content (Medium.ofContent Sample.content).reach
      ({} : Settings).layout "p" = .ok .fullStream := Sample.classifyIn_content.1
  rw [found] at looked
  let s : Session := .start {} 1 ["p"]
  let stream : FullStream := { package := "p", chunkSize := 2048 }
  let current : Session :=
    { s with place := .at 0, mode := .fullStream, stream := some stream }
  have given : s.nextPackage (.ofContent Sample.content) =
      (.ok (.package { package := "p", mode := .fullStream }), current, m₁) :=
    Session.seekPackage_cons (s := s) looked 0 []
  have reached : behind { settings := {} } (Medium.ofContent Sample.content)
      [.start 1 ["p"], .nextPackage] = ({ settings := {}, session := some current }, m₁) := by
    have first : perform { settings := {} } (Medium.ofContent Sample.content) (.start 1 ["p"]) =
        { answer := .status .ok
          transport := { settings := {}, session := some s }
          medium := .ofContent Sample.content } := rfl
    have chosen := nextPackage_of_session (t := { settings := {}, session := some s }) rfl given
    simp only [behind, first, perform_nextPackage chosen]
  obtain ⟨cursor, m₂, opened, faultless₂, holds⟩ := Sample.openCursor_stream faultless₁ reach 2048
  obtain ⟨next, m₃, read, -⟩ := Cursor.readChunk_of_sound holds faultless₂.sound 2048
  have starts : stream.Starts s.layout m₁ cursor m₂ := .opened rfl opened
  have called : stream.nextChunk s.layout m₁ Sample.oneByte =
      (.error (stream.failure (.external .brokenPipe "reader closed")), stream.close .failed,
        m₃.release, { Sample.oneByte with writes := 2, count := 1, latestFirst := [100] }) := by
    have whole : [100, 97, 116, 97].take 2048 = ([100, 97, 116, 97] : List UInt8) := rfl
    rw [starts.nextChunk, FullStream.step, read]
    simp only [whole, List.isEmpty_cons, Bool.false_eq_true, if_false, Sample.writeAll_oneByte]
  exact ⟨rfl, _, _, _, _, _, _, reached, streamChunk_of_stream rfl rfl rfl called, rfl, rfl,
    by decide⟩

end Transport
end BackupRestore
