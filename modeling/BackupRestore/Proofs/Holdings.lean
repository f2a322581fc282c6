/-
Module: BackupRestore.Proofs.Holdings
Purpose: What an archive holds for a package, and that moving a package's data out of it whole gives
  just that.
Main exports: Zip.Entry.isRecord, recordsHeldIn, streamHeldIn, transferRecords_of_held,
  transferRecords_of_unheld, Cursor.ending, Cursor.readChunk_of_sane, FullStream.ComesTo,
  FullStream.nextChunk_of_comesTo, Transport.streamMore_of_comesTo
-/
import BackupRestore.Proofs.Frames
import BackupRestore.Proofs.Preservation
import BackupRestore.Proofs.Records
import BackupRestore.Proofs.Streaming

namespace BackupRestore

/-!
Where no open and no read fails, the bytes of an archive decide what becomes of a package whose
data is moved whole.  Of records, either all can be moved or the transfer fails
(`recordsHeldIn`).  Of a stream, all chunks together are the payload, or the package is refused,
or the data breaks off (`streamHeldIn`).  Where a broken stream is found out depends on the size of
the chunks, and which bytes have been moved by then; that it is found out does not: a chunk that is
shorter than was asked for comes only from data that has been decoded to its end.
-/

/-! ### What is held -/

section Held

variable [Zip.Codecs]

/-- The entry spells a record, and a header can state its lengths. -/
def Zip.Entry.isRecord (e : Zip.Entry) (c : Content) (reach : Option Nat) : Bool :=
  match KeyName.decode (Layout.lastSegment e.name), e.payload c reach with
  | .ok key, .ok value =>
      !e.isEncrypted && !e.hasCipherNote && !e.method.name?.isNone && crc32 value == e.checksum &&
        decide (key.length < Record.lengthBound) && decide (value.length < Record.lengthBound)
  | _, _ => false

/-- A transfer can go on behind the entry: it can be visited, and moved if it is to be. -/
def Zip.Entry.isPassable (e : Zip.Entry) (c : Content) (reach : Option Nat) (p : Pattern) : Bool :=
  (e.dataStart c reach).isOk && (!p.selects e || e.isRecord c reach)

/-- The records of a package, if all of them can be moved. -/
def recordsHeldIn (c : Content) (reach : Option Nat) (layout : Layout) (package : String) :
    Option (List Record) :=
  match Zip.Directory.read c with
  | .error _ => none
  | .ok directory =>
      let p := Pattern.under (layout.recordsOf package)
      if directory.entries.toList.all (·.isPassable c reach p) then
        some (Transfer.recordsIn c reach p directory.entries.toList)
      else none

/-- The bytes of a package's full stream, or the status with which moving them ends. -/
def streamHeldIn (c : Content) (reach : Option Nat) (layout : Layout) (package : String) :
    Except Status (List UInt8) :=
  match locateIn c reach (.exactly (layout.streamPath package)) with
  | .error _ | .ok none => .error .packageRejected
  | .ok (some (a, found)) =>
      match a.directory.entries[found.index]? with
      | none => .error .packageRejected
      | some e =>
          if e.isEncrypted || !e.method.isSupported then .error .packageRejected
          else (e.payload c reach).mapError fun _ => .error

theorem Zip.Entry.isRecord_iff {e : Zip.Entry} {c : Content} {reach : Option Nat} :
    e.isRecord c reach = true ↔ ∃ r, e.Spells c reach r ∧ r.Fits := by
  constructor
  · intro spelled
    unfold isRecord at spelled
    split at spelled
    · rename_i key value decoded stands
      simp only [Bool.and_eq_true, Bool.not_eq_true', beq_iff_eq, decide_eq_true_eq] at spelled
      obtain ⟨⟨⟨⟨⟨plain, unnoted⟩, named⟩, checksum⟩, key_fits⟩, value_fits⟩ := spelled
      exact ⟨{ key, value }, ⟨decoded, plain, unnoted, named, stands, checksum⟩,
        key_fits, value_fits⟩
    · cases spelled
  · rintro ⟨r, spells, fits⟩
    have value := spells.value
    simp only [isRecord, spells.key, value.stands, value.plain, value.unnoted, value.named,
      value.checksum, fits.key, fits.value, Bool.not_false, beq_self_eq_true, decide_true,
      Bool.and_self]

theorem Zip.Entry.isPassable_iff {e : Zip.Entry} {c : Content} {reach : Option Nat}
    {p : Pattern} :
    e.isPassable c reach p = true ↔ (∃ start, e.dataStart c reach = .ok start) ∧
      (p.selects e = true → ∃ r, e.Spells c reach r ∧ r.Fits) := by
  rw [isPassable, Bool.and_eq_true, Bool.or_eq_true, Bool.not_eq_true', isRecord_iff]
  cases e.dataStart c reach with
  | error cause => simp [Except.isOk, Except.toBool]
  | ok start =>
      cases p.selects e with
      | false => simp [Except.isOk, Except.toBool]
      | true => simp [Except.isOk, Except.toBool]

/-- The records of a package can be moved if every entry can be passed. -/
theorem recordsHeldIn_eq_some_iff {c : Content} {reach : Option Nat} {layout : Layout}
    {package : String} {records : List Record} :
    recordsHeldIn c reach layout package = some records ↔
      ∃ directory, Zip.Directory.read c = .ok directory ∧
        (∀ e ∈ directory.entries.toList, (∃ start, e.dataStart c reach = .ok start) ∧
          ((Pattern.under (layout.recordsOf package)).selects e = true →
            ∃ r, e.Spells c reach r ∧ r.Fits)) ∧
        records = Transfer.recordsIn c reach (.under (layout.recordsOf package))
          directory.entries.toList := by
  unfold recordsHeldIn
  cases Zip.Directory.read c with
  | error cause => simp
  | ok directory =>
      simp only [Except.ok.injEq, exists_eq_left', Option.ite_none_right_eq_some,
        Option.some.injEq, List.all_eq_true, Zip.Entry.isPassable_iff]
      exact and_congr_right fun _ => eq_comm

/-- A header can state the lengths of each record that can be moved. -/
theorem fits_of_recordsHeldIn {c : Content} {reach : Option Nat} {layout : Layout}
    {package : String} {records : List Record}
    (held : recordsHeldIn c reach layout package = some records) :
    ∀ r ∈ records, r.Fits := by
  obtain ⟨directory, -, passable, rfl⟩ := recordsHeldIn_eq_some_iff.1 held
  intro r member
  obtain ⟨e, chosen, rfl⟩ := List.mem_map.1 member
  obtain ⟨listed, selected⟩ := List.mem_filter.1 chosen
  obtain ⟨r, spells, fits⟩ := (passable e listed).2 selected
  rw [spells.record]
  exact fits

end Held

/-! ### Records moved into frames -/

theorem Output.unfailing_willing : Output.willing.Unfailing :=
  ⟨fun _ _ offered some_offered => ⟨offered, some_offered, Nat.le_refl _, rfl⟩, fun _ => rfl⟩

namespace RecordWriter

/-- The calls for a record write it. -/
theorem deliverAll_calls (w : RecordWriter) (r : Record) :
    Transfer.deliverAll w r.calls = w.writeRecord r := by
  have header : (SinkCall.header r.key r.value.length).deliver w =
      w.writeHeader r.key r.value.length := rfl
  have data : ∀ w' : RecordWriter, (SinkCall.data r.value).deliver w' = w'.writeData r.value :=
    fun _ => rfl
  simp only [Record.calls, Transfer.deliverAll, header, data, writeRecord]
  rcases w.writeHeader r.key r.value.length with ⟨cause | done, w₁⟩
  · rfl
  · simp only
    rcases w₁.writeData r.value with ⟨cause | done, w₂⟩ <;> rfl

theorem deliverAll_records (w : RecordWriter) (records : List Record) :
    Transfer.deliverAll w (records.flatMap Record.calls) = w.writeRecords records := by
  induction records generalizing w with
  | nil => rfl
  | cons r records ih =>
      rw [List.flatMap_cons, Transfer.deliverAll_append, deliverAll_calls, writeRecords]
      rcases w.writeRecord r with ⟨cause | done, w₁⟩
      · rfl
      · exact ih w₁

/-- A record that has been written has lengths that a header can state. -/
theorem fits_of_writeRecord {w w' : RecordWriter} {r : Record}
    (written : w.writeRecord r = (.ok (), w')) : r.Fits := by
  unfold writeRecord at written
  split at written
  · cases written
  · rename_i w₁ announced
    unfold writeHeader at announced
    split at announced
    · cases announced
    · split at announced
      · cases announced
      · rename_i key_fits
        split at announced
        · cases announced
        · rename_i value_fits
          exact ⟨Nat.lt_of_not_le key_fits, Nat.lt_of_not_le value_fits⟩

theorem fits_of_writeRecords {w w' : RecordWriter} {records : List Record}
    (written : w.writeRecords records = (.ok (), w')) : ∀ r ∈ records, r.Fits := by
  induction records generalizing w with
  | nil => simp
  | cons r records ih =>
      rw [writeRecords] at written
      split at written
      · cases written
      · rename_i w₁ first
        rw [List.forall_mem_cons]
        exact ⟨fits_of_writeRecord first, ih written⟩

end RecordWriter

namespace Transfer

/-- Steps that have been taken for some entries have visited each, and read each record. -/
theorem readable_of_performed [Zip.Codecs] {σ : Type} [RecordSink σ] {a : Archive} {p : Pattern}
    {reach : Option Nat} {index : Nat} {remaining : List Zip.Entry}
    (left : a.directory.entries.toList.drop index = remaining) {m m' : Medium} {sink sink' : σ}
    (reachable : m.reach = reach)
    (performed : Performed a m sink (plan a.handle.content reach p index remaining) m' sink') :
    ∀ e ∈ remaining, (∃ start, e.dataStart a.handle.content reach = .ok start) ∧
      (p.selects e = true → ∃ r, e.Spells a.handle.content reach r) := by
  induction remaining generalizing index m sink with
  | nil => simp
  | cons e rest ih =>
      obtain ⟨here, behind⟩ := Archive.entries_of_drop left
      obtain - | ⟨first, later⟩ := performed
      rw [List.forall_mem_cons]
      simp only [Step.perform] at first
      split at first
      · cases first
      · rename_i handle m₁ visited
        simp only [Prod.mk.injEq, true_and] at first
        obtain ⟨rfl, rfl⟩ := first
        have reads := a.reads_visit m e
        rw [visited] at reads
        obtain ⟨start, begins, -⟩ := Archive.visit_eq_ok visited
        rw [reachable] at begins
        have reachable₁ := reads.reach.trans reachable
        cases chosen : p.selects e with
        | false =>
            simp only [chosen, Bool.false_eq_true, if_false, List.nil_append] at later
            refine ⟨⟨⟨start, begins⟩, ?_⟩, ih behind reachable₁ later⟩
            intro selected
            cases selected
        | true =>
            simp only [chosen, if_true, stepsFor, List.cons_append, List.nil_append] at later
            -- The four steps of the record: its key, its value, and the two calls.
            obtain - | ⟨decoding, later⟩ := later
            obtain - | ⟨reading, later⟩ := later
            obtain - | ⟨announcing, later⟩ := later
            obtain - | ⟨handing, later⟩ := later
            simp only [Step.perform] at decoding reading announcing handing
            split at decoding
            · cases decoding
            · rename_i key decoded
              simp only [Prod.mk.injEq, true_and] at decoding
              obtain ⟨rfl, rfl⟩ := decoding
              split at reading
              · cases reading
              · rename_i value m₂ read
                cases reading
                have gives := Archive.gives_of_readEntry here read
                have reads' := a.reads_readEntry m₁ index
                rw [read] at reads'
                rw [reachable₁] at gives
                split at announcing
                · cases announcing
                · cases announcing
                  split at handing
                  · cases handing
                  · cases handing
                    refine ⟨⟨⟨start, begins⟩, fun _ => ⟨{ key, value }, decoded, gives⟩⟩, ?_⟩
                    exact ih behind (reads'.reach.trans reachable₁) later

end Transfer

section Records

variable [Zip.Codecs] {m : Medium} {c : Content} {layout : Layout} {package : String}

/-- Records that can be moved are written as frames, one behind the other. -/
theorem transferRecords_of_held (faultless : m.Faultless c) {records : List Record}
    (held : recordsHeldIn c m.reach layout package = some records) :
    ∃ m' w, transferRecords layout package m ({ output := .willing } : RecordWriter) =
        (.ok records.length, m', w) ∧
      w.records = records.length ∧ w.output.taken = records.flatMap Record.frame := by
  have fit := fits_of_recordsHeldIn held
  obtain ⟨directory, read, passable, listed⟩ := recordsHeldIn_eq_some_iff.1 held
  obtain ⟨m', moved⟩ := Transfer.transferRecords_of_readable faultless read
    (fun e member => (passable e member).1)
    (fun e member selected =>
      let ⟨r, spells, _⟩ := (passable e member).2 selected
      ⟨r, spells⟩)
    listed ({ output := .willing } : RecordWriter)
  obtain ⟨o, written, taken⟩ := RecordWriter.writeRecords_of_unfailing
    (w := { output := .willing }) Output.unfailing_willing rfl fit
  rw [RecordWriter.deliverAll_records, written] at moved
  exact ⟨m', _, moved, Nat.zero_add _, taken⟩

/-- If one of a package's records cannot be moved, or one of the entries not be visited, the
transfer fails. -/
theorem transferRecords_of_unheld (faultless : m.Faultless c)
    (unheld : recordsHeldIn c m.reach layout package = none) :
    ∃ e m' w, transferRecords layout package m ({ output := .willing } : RecordWriter) =
      (.error e, m', w) := by
  rcases moved : transferRecords layout package m ({ output := .willing } : RecordWriter) with
    ⟨e | n, m', w⟩
  · exact ⟨e, m', w, rfl⟩
  · exfalso
    obtain ⟨m₁, faultless₁, reach, -, opened⟩ := Archive.openOn_of_faultless faultless
    cases read : Zip.Directory.read c with
    | error cause =>
        rw [read] at opened
        simp only [transferRecords, opened] at moved
        cases moved
    | ok directory =>
        rw [read] at opened
        rw [Transfer.transferRecords_of_openOn opened reach] at moved
        obtain ⟨performed, rest, m₂, w₂, split, succeeded, ending⟩ := Transfer.performAll_cases
          { directory, handle := { content := c } } m₁ ({ output := .willing } : RecordWriter)
          (Transfer.plan c m.reach (.under (layout.recordsOf package)) 0
            directory.entries.toList)
        rcases ending with ⟨done, all⟩ | ⟨step, later, cause, m₃, w₃, -, -, all⟩
        · rw [done, List.append_nil] at split
          rw [← split] at succeeded
          have readable := Transfer.readable_of_performed
            (a := { directory, handle := { content := c } }) List.drop_zero reach succeeded
          have received := succeeded.received
          rw [Transfer.calls_plan, Transfer.received_iff, RecordWriter.deliverAll_records]
            at received
          have fit := RecordWriter.fits_of_writeRecords received
          rw [recordsHeldIn_eq_some_iff.2 ⟨directory, read, ?_, rfl⟩] at unheld
          · cases unheld
          · intro e member
            refine ⟨(readable e member).1, fun selected => ?_⟩
            obtain ⟨r, spells⟩ := (readable e member).2 selected
            refine ⟨r, spells, fit r ?_⟩
            rw [← spells.record]
            exact List.mem_map_of_mem (List.mem_filter.2 ⟨member, selected⟩)
        · rw [all] at moved
          cases moved

end Records

/-! ### Streams moved to their end -/

/-- Compressed bytes that lead an inflater to their end can be inflated. -/
theorem Deflate.inflate_of_finished {bytes : List UInt8}
    (finished : (({} : Inflater).feed bytes).outcome.2 = .finished) :
    inflate bytes = .ok (({} : Inflater).feed bytes).outcome.1 := by
  unfold Inflater.outcome at finished ⊢
  unfold inflate
  generalize (({} : Inflater).feed bytes).exhaust = ended at finished ⊢
  obtain ⟨final, stop⟩ := ended
  have finished : stop = .finished := finished
  subst finished
  rfl

namespace Cursor

namespace Inflow

variable {f f' : Inflow} {m m' : Medium} {n : Nat} {bytes : List UInt8}

/-- A chunk is shorter than was asked for only where the data has been decoded to its end.  Every
fetch leaves less to fetch. -/
theorem finished_of_fill (sane : f.inflater.Sane) {before : Nat}
    (given : f.fill m before n = (.ok bytes, f', m')) (short : bytes.length < n) :
    f.outcome.2 = .finished := by
  induction left : f.limit using Nat.strongRecOn generalizing m f before with
  | _ limit ih =>
      obtain ⟨reaches, stops⟩ := Deflate.Inflater.reaches_run sane n
      rw [Inflow.fill] at given
      generalize f.inflater.run n = ran at reaches stops given
      obtain ⟨inflater, stop⟩ := ran
      have decoded := hands_decode sane reaches
      rw [← decoded.outcome]
      cases stop with
      | enough =>
          have wanted : n ≤ inflater.waiting := stops
          have delivered := length_deliver decoded.sane n
          rw [Nat.min_eq_left wanted] at delivered
          cases given
          exact absurd short (Nat.not_lt.2 (Nat.le_of_eq delivered.symm))
      | finished =>
          have ends := Deflate.Inflater.outcome_feed_of_stop stops (by simp)
          rw [outcome, ends]
      | corrupt => cases given
      | starved =>
          simp only at given
          split at given
          · cases given
          · cases given
          · rename_i k next m₁ fetched
            have shorter := Inflow.limit_fetch fetched
            have kept := hands_fetch decoded.sane fetched
            rw [← kept.outcome]
            refine ih next.limit ?_ kept.sane given rfl
            simp only at shorter
            omega

theorem finished_of_readChunk (sane : f.inflater.Sane)
    (given : f.readChunk m n = (.ok bytes, f', m')) (short : bytes.length < n) :
    f.outcome.2 = .finished := by
  unfold Inflow.readChunk at given
  split at given
  · rename_i nothing
    subst nothing
    exact absurd short (Nat.not_lt_zero _)
  · split at given
    · split at given
      · cases given
      · rename_i fetched
        have kept := hands_fetch sane fetched
        rw [← kept.outcome]
        exact finished_of_fill kept.sane given short
    · exact finished_of_fill sane given short

end Inflow

/-- All data that is left can be read: it is stored, or can be decoded to its end. -/
def endsWell : Cursor → Bool
  | stored _ _ => true
  | deflated handle limit inflater =>
      (Inflow.outcome { handle, limit, inflater }).2 == .finished

/-- What reading to the end brings, in whatever chunks. -/
def ending (c : Cursor) : Except Status (List UInt8) :=
  if c.endsWell then .ok c.remainder else .error .error

variable {c c' : Cursor} {m m' : Medium} {n : Nat}

theorem holds_of_endsWell (sane : c.Sane) (well : c.endsWell = true) : c.Holds c.remainder := by
  cases c with
  | stored handle limit => rfl
  | deflated handle limit inflater =>
      have finished : (Inflow.outcome { handle, limit, inflater }).2 = .finished :=
        beq_iff_eq.1 well
      exact ⟨sane, _, Prod.ext rfl finished, rfl⟩

/-- A chunk leaves the end of the data as it is, and if it is a short one, that end is a regular
one. -/
theorem endsWell_readChunk {bytes : List UInt8} (sane : c.Sane)
    (read : c.readChunk m n = (.ok bytes, c', m')) :
    c'.endsWell = c.endsWell ∧ (bytes.length < n → c.endsWell = true) := by
  cases c with
  | stored handle limit =>
      simp only [readChunk] at read
      split at read
      · cases read
      · cases read
        exact ⟨rfl, fun _ => rfl⟩
  | deflated handle limit inflater =>
      simp only [readChunk] at read
      generalize given : Inflow.readChunk m { handle, limit, inflater } n = answer at read
      obtain ⟨answer, next, m₁⟩ := answer
      cases read
      have hands := Inflow.hands_readChunk (f := { handle, limit, inflater }) sane given
      constructor
      · exact congrArg (fun outcome => outcome.2 == .finished) hands.outcome
      · intro short
        exact beq_iff_eq.2 (Inflow.finished_of_readChunk
          (f := { handle, limit, inflater }) sane given short)

/-- Where no read fails, a chunk fails only of data that does not end well, and is the beginning
of what is left otherwise. -/
theorem readChunk_of_sane (sane : c.Sane) (sound : m.delivery.Sound) (some_asked : 0 < n) :
    (∃ cause next m', c.readChunk m n = (.error cause, next, m') ∧ c.endsWell = false) ∨
    (∃ next m', c.readChunk m n = (.ok (c.remainder.take n), next, m') ∧ next.Sane ∧
      next.remainder = c.remainder.drop n ∧ next.endsWell = c.endsWell ∧
      (c.remainder.take n = [] → c.endsWell = true)) := by
  rcases read : c.readChunk m n with ⟨cause | bytes, next, m'⟩
  · refine Or.inl ⟨cause, next, m', rfl, eq_false_of_ne_true fun well => ?_⟩
    obtain ⟨next', m'', given, -⟩ := readChunk_of_sound (holds_of_endsWell sane well) sound n
    rw [given] at read
    cases read
  · obtain ⟨sane', rfl, behind⟩ := readChunk_eq_ok sane read
    obtain ⟨same, short⟩ := endsWell_readChunk sane read
    refine Or.inr ⟨next, m', rfl, sane', behind, same, fun nothing => short ?_⟩
    rw [nothing]
    exact some_asked

/-- At the beginning of an entry's data, reading to the end brings the payload. -/
theorem ending_cursorAt [Zip.Codecs] {e : Zip.Entry} {h : Handle} {reach : Option Nat}
    {start : Nat} (supported : e.method.isSupported = true)
    (begins : e.dataStart h.content reach = .ok start) :
    (e.cursorAt (h.moveTo start)).Sane ∧ (e.cursorAt (h.moveTo start)).ending =
      (e.payload h.content reach).mapError fun _ => .error := by
  have ahead : (h.moveTo start).upcoming e.compressedSize =
      h.content.slice start (start + e.compressedSize) := rfl
  unfold Zip.Entry.cursorAt Zip.Entry.payload
  simp only [begins, Archive.decodeWhole_of_supported supported]
  unfold Archive.decode
  by_cases method : e.method = .stored
  · simp only [if_pos method]
    exact ⟨trivial, rfl⟩
  · simp only [if_neg method]
    refine ⟨⟨rfl, Nat.zero_le _⟩, ?_⟩
    simp only [ending, endsWell, remainder, Inflow.remainder, Inflow.outcome, ahead]
    generalize h.content.slice start (start + e.compressedSize) = data
    by_cases finished : (({} : Deflate.Inflater).feed data).outcome.2 = .finished
    · rw [if_pos (beq_iff_eq.2 finished), Deflate.inflate_of_finished finished]
      rfl
    · rw [if_neg (mt beq_iff_eq.1 finished)]
      cases inflated : Deflate.inflate data with
      | error cause => rfl
      | ok bytes => exact absurd (congrArg Prod.snd (Deflate.outcome_of_inflate inflated)) finished

end Cursor

namespace FullStream

theorem status_openingError (s : FullStream) (e : RestoreError) :
    (s.openingError e).status = .packageRejected := by
  unfold openingError
  split
  · rename_i refused
    rw [RestoreError.status, if_pos refused]
  · rfl

/-- Where no open and no read fails, a stream that cannot be opened is refused, and one that can
is read to what the archive holds. -/
theorem openCursor_of_held [Zip.Codecs] {m : Medium} {c : Content} (faultless : m.Faultless c)
    (s : FullStream) (layout : Layout) :
    (∃ e m', s.openCursor layout m = (.error e, m') ∧
      streamHeldIn c m.reach layout s.package = .error .packageRejected) ∨
    (∃ cursor m', s.openCursor layout m = (.ok cursor, m') ∧ m'.delivery.Sound ∧ cursor.Sane ∧
      streamHeldIn c m.reach layout s.package = cursor.ending) := by
  obtain ⟨m₁, faultless₁, reach₁, -, located⟩ :=
    locate_of_faultless faultless (.exactly (layout.streamPath s.package))
  unfold openCursor streamHeldIn
  rw [located]
  rcases first : locateIn c m.reach (.exactly (layout.streamPath s.package)) with
    e | _ | ⟨a, found⟩
  · exact Or.inl ⟨_, _, rfl, rfl⟩
  · exact Or.inl ⟨_, _, rfl, rfl⟩
  · obtain ⟨handle, -, e, start, -, here, -, begins⟩ := locateIn_eq_some first
    have begins' : e.dataStart a.handle.content m₁.reach = .ok start := by
      rw [handle, reach₁]
      exact begins
    obtain ⟨d, sound, opened⟩ := Archive.intoCursor_of_begins faultless₁.sound here begins'
    simp only [here, opened]
    cases plain : e.isEncrypted with
    | true => exact Or.inl ⟨_, _, rfl, rfl⟩
    | false =>
        cases supported : e.method.isSupported with
        | false => exact Or.inl ⟨_, _, rfl, rfl⟩
        | true =>
            obtain ⟨sane, ending⟩ := Cursor.ending_cursorAt supported begins'
            refine Or.inr ⟨_, _, rfl, sound, sane, ?_⟩
            rw [ending, handle, reach₁]
            rfl

variable [Zip.Codecs]

/-- What a stream comes to when it is called until it ends, if no open and no read of an archive
with the bytes `c` fails. -/
inductive ComesTo (layout : Layout) (c : Content) (reach : Option Nat) (s : FullStream) :
    Except Status (List UInt8) → Prop where
  | unopened (phase : s.phase = .notStarted) :
      ComesTo layout c reach s (streamHeldIn c reach layout s.package)
  | streaming {cursor : Cursor} (phase : s.phase = .streaming cursor) (sane : cursor.Sane) :
      ComesTo layout c reach s cursor.ending

/-- One call of a stream that comes to `ending`: it fails as that does, or finds nothing left, or
moves a piece and comes to the rest. -/
inductive Advances (layout : Layout) (c : Content) (reach : Option Nat) (s : FullStream)
    (o : Output) : (ending : Except Status (List UInt8)) → Except RestoreError ChunkResult →
    FullStream → Output → Prop where
  | fails {e : RestoreError} {s' : FullStream} {o' : Output} :
      Advances layout c reach s o (.error e.status) (.error e) s' o'
  | ends {s' : FullStream} {o' : Output} (taken : o'.taken = o.taken) :
      Advances layout c reach s o (.ok []) (.ok .noMoreData) s' o'
  | moves {piece : List UInt8} {ending : Except Status (List UInt8)} {s' : FullStream}
      {o' : Output} (taken : o'.taken = o.taken ++ piece) (unfailing : o'.Unfailing)
      (size : s'.chunkSize = s.chunkSize) (comes : s'.ComesTo layout c reach ending) :
      Advances layout c reach s o (ending.map (piece ++ ·)) (.ok (.data piece.length)) s' o'

variable {layout : Layout} {c : Content} {s : FullStream} {m : Medium} {o : Output}

theorem step_of_sane {reach : Option Nat} {cursor : Cursor} (sane : cursor.Sane)
    (sound : m.delivery.Sound) (some_size : 0 < s.chunkSize) (unfailing : o.Unfailing) :
    ∃ answer s' m' o', s.step m cursor o = (answer, s', m', o') ∧
      s.Advances layout c reach o cursor.ending answer s' o' := by
  unfold step
  rcases Cursor.readChunk_of_sane sane sound some_size with
    ⟨cause, next, m₁, read, ill⟩ | ⟨next, m₁, read, sane', behind, same, short⟩
  · have ending : cursor.ending = .error (s.failure cause).status := by
      rw [Cursor.ending, ill]
      rfl
    rw [read, ending]
    exact ⟨_, _, _, _, rfl, .fails⟩
  · rw [read]
    by_cases nothing : cursor.remainder.take s.chunkSize = []
    · have ending : cursor.ending = .ok [] := by
        rcases List.take_eq_nil_iff.1 nothing with no_size | none_left
        · exact absurd no_size (Nat.ne_of_gt some_size)
        · rw [Cursor.ending, if_pos (short nothing), none_left]
      obtain ⟨o', flushed, -, taken⟩ := Output.flush_of_unfailing unfailing
      simp only [nothing, List.isEmpty_nil, if_true, flushed, ending]
      exact ⟨_, _, _, _, rfl, .ends taken⟩
    · have ending : cursor.ending = next.ending.map (cursor.remainder.take s.chunkSize ++ ·) := by
        rw [Cursor.ending, Cursor.ending, same, behind]
        cases cursor.endsWell with
        | false => rfl
        | true => exact congrArg Except.ok (List.take_append_drop _ _).symm
      obtain ⟨o', written, unfailing', taken⟩ := Output.writeAll_of_unfailing unfailing
        (cursor.remainder.take s.chunkSize)
      simp only [List.isEmpty_eq_false_iff.2 nothing, Bool.false_eq_true, if_false, written, ending]
      exact ⟨_, _, _, _, rfl, .moves taken unfailing' rfl (.streaming rfl sane')⟩

/-- A call of a stream goes one step towards what it comes to. -/
theorem nextChunk_of_comesTo {ending : Except Status (List UInt8)}
    (comes : s.ComesTo layout c m.reach ending) (faultless : m.Faultless c)
    (some_size : 0 < s.chunkSize) (unfailing : o.Unfailing) :
    ∃ answer s' m' o', s.nextChunk layout m o = (answer, s', m', o') ∧
      s.Advances layout c m.reach o ending answer s' o' := by
  unfold nextChunk
  cases comes with
  | unopened phase =>
      simp only [phase]
      rcases s.openCursor_of_held faultless layout with
        ⟨e, m₁, opened, refused⟩ | ⟨cursor, m₁, opened, sound, sane, held⟩
      · rw [opened, refused, ← s.status_openingError e]
        exact ⟨_, _, _, _, rfl, .fails⟩
      · rw [opened, held]
        exact step_of_sane sane sound some_size unfailing
  | streaming phase sane =>
      simp only [phase]
      exact step_of_sane sane faultless.sound some_size unfailing

end FullStream

namespace Transport

variable [Zip.Codecs] {t : Transport} {s : Session} {stream : FullStream} {m : Medium}
  {c : Content} {o : Output} {ending : Except Status (List UInt8)}

theorem streamChunk_of_comesTo (begun : t.session = some s) (mode : s.mode = .fullStream)
    (held : s.stream = some stream) (comes : stream.ComesTo s.layout c m.reach ending)
    (faultless : m.Faultless c) (some_size : 0 < stream.chunkSize) (unfailing : o.Unfailing) :
    ∃ answer stream' m' o', t.streamChunk m o = (.ok (answer.mapError RestoreError.status),
        { t with session := some { s with stream := some stream' } }, m', o') ∧
      stream.Advances s.layout c m.reach o ending answer stream' o' := by
  obtain ⟨answer, stream', m', o', called, advances⟩ :=
    FullStream.nextChunk_of_comesTo comes faultless some_size unfailing
  refine ⟨answer, stream', m', o', ?_, advances⟩
  simp only [streamChunk, begun, Session.streamChunk, mode, ne_eq, not_true_eq_false, if_false,
    held, called]
  cases answer <;> rfl

/-- Moving chunks until no more come moves what the stream comes to, whatever the size of the
chunks. -/
theorem streamMore_of_comesTo (begun : t.session = some s) (mode : s.mode = .fullStream)
    (held : s.stream = some stream) (comes : stream.ComesTo s.layout c m.reach ending)
    (faultless : m.Faultless c) (some_size : 0 < stream.chunkSize) (unfailing : o.Unfailing)
    (moved : Nat) :
    ∃ stream' m' o', t.streamMore m o moved =
        (.ok (ending.map fun rest => moved + rest.length),
          { t with session := some { s with stream := some stream' } }, m', o') ∧
      ∀ rest, ending = .ok rest → o'.taken = o.taken ++ rest := by
  fun_induction streamMore t m o moved generalizing s stream ending with
  | case1 t m o moved misuse t' m' o' eq =>
      obtain ⟨answer, stream', m₁, o₁, called, -⟩ :=
        streamChunk_of_comesTo begun mode held comes faultless some_size unfailing
      rw [eq] at called
      cases called
  | case2 t m o moved status t' m' o' eq =>
      obtain ⟨answer, stream', m₁, o₁, called, advances⟩ :=
        streamChunk_of_comesTo begun mode held comes faultless some_size unfailing
      rw [eq] at called
      cases advances <;> cases called
      refine ⟨_, _, _, rfl, ?_⟩
      rintro rest ⟨⟩
  | case3 t m o moved t' m' o' eq =>
      obtain ⟨answer, stream', m₁, o₁, called, advances⟩ :=
        streamChunk_of_comesTo begun mode held comes faultless some_size unfailing
      rw [eq] at called
      cases advances with
      | ends taken =>
          cases called
          refine ⟨_, _, _, rfl, ?_⟩
          rintro rest ⟨⟩
          rw [taken, List.append_nil]
      | fails => cases called
      | moves => cases called
  | case4 t m o moved n t' m' o' eq progress ih =>
      have kept := t.keeps_streamChunk m o
      obtain ⟨answer, stream', m₁, o₁, called, advances⟩ :=
        streamChunk_of_comesTo begun mode held comes faultless some_size unfailing
      rw [eq] at called kept
      cases advances with
      | fails => cases called
      | ends => cases called
      | @moves piece rest _ _ taken unfailing' size comes' =>
          cases called
          rw [← kept.medium.reach] at comes'
          obtain ⟨stream₂, m₂, o₂, more, taken'⟩ := ih rfl mode rfl comes'
            (kept.medium.faultless c faultless) (size ▸ some_size) unfailing'
          refine ⟨stream₂, m₂, o₂, ?_, ?_⟩
          · rw [more]
            cases rest with
            | error status => rfl
            | ok rest => simp only [Except.map, List.length_append, Nat.add_assoc]
          · intro whole ended
            cases rest with
            | error status => cases ended
            | ok rest =>
                cases ended
                rw [taken' rest rfl, taken, List.append_assoc]

end Transport

end BackupRestore
