/-
Module: BackupRestore.Proofs.Chunks
Purpose: Reading a payload piece by piece gives the payload, in however many pieces it comes.
Main exports: Cursor.Inflow.Holds, Cursor.Inflow.Gives, Cursor.Holds, Cursor.readChunk_of_sound,
  Cursor.holds_cursorAt, Zip.Entry.Leads, FullStream.openCursor_of_faultless
-/
import BackupRestore.Proofs.Cursor
import BackupRestore.Proofs.Payloads
import BackupRestore.Proofs.Remainder

namespace BackupRestore

/-!
A cursor holds the rest of a payload (`Cursor.Holds`) if that is what is left at it, and if
compressed data can be decoded to its regular end.  On a medium that gives no trouble a chunk can
then always be read: what is fetched never ends before the data does, and nothing of it is
corrupt.  Which bytes are in the chunk and which stand behind it is as for every chunk that is
read (`Cursor.Inflow.Hands`).
-/

namespace Cursor

/-! ### Compressed payloads -/

namespace Inflow

/-- What is left to deliver is `rest`: the end of the bytes to which everything that has been
and is still to be fetched leads. -/
structure Holds (f : Inflow) (rest : List UInt8) : Prop where
  sane : f.inflater.Sane
  ends : ∃ payload, (f.inflater.feed (f.handle.upcoming f.limit)).outcome = (payload, .finished) ∧
    rest = payload.drop f.inflater.delivered

/-- The answer brings the next `n` bytes of `rest` and holds what stands behind them. -/
def Gives (answer : Except IoError (List UInt8) × Inflow × Medium) (rest : List UInt8)
    (n : Nat) : Prop :=
  ∃ next m, answer = (.ok (rest.take n), next, m) ∧ m.delivery.Sound ∧ next.Holds (rest.drop n)

variable {f : Inflow} {rest : List UInt8} {m : Medium}

theorem Holds.rest_eq (holds : f.Holds rest) : rest = f.remainder := by
  obtain ⟨payload, ends, left⟩ := holds.ends
  have whole : f.outcome = (payload, .finished) := ends
  rw [remainder, whole]
  exact left

/-- What is handed out is the beginning of what is left, and leaves the rest. -/
theorem Holds.hands (holds : f.Holds rest) {n : Nat} {bytes : List UInt8} {next : Inflow}
    (hands : f.Hands n bytes next) : bytes = rest.take n ∧ next.Holds (rest.drop n) := by
  obtain ⟨payload, ends, -⟩ := holds.ends
  rw [holds.rest_eq]
  refine ⟨hands.bytes, hands.sane, payload, hands.outcome.trans ends, ?_⟩
  have whole : next.outcome = (payload, .finished) := hands.outcome.trans ends
  rw [← hands.remainder, Inflow.remainder, whole]

theorem Holds.gives (holds : f.Holds rest) {n : Nat} {bytes : List UInt8} {next : Inflow}
    (hands : f.Hands n bytes next) (sound : m.delivery.Sound) :
    Gives (.ok bytes, next, m) rest n := by
  obtain ⟨rfl, behind⟩ := holds.hands hands
  exact ⟨next, m, rfl, sound, behind⟩

/-- Decoding delivers nothing. -/
theorem Holds.decode (holds : f.Holds rest) {inflater : Deflate.Inflater}
    (reaches : f.inflater.Reaches inflater) : Holds { f with inflater } rest :=
  (holds.hands (hands_decode holds.sane reaches)).2

/-- A fetch brings some compressed bytes, as long as there are any, and delivers nothing. -/
theorem Holds.fetch (holds : f.Holds rest) (sound : m.delivery.Sound) :
    ∃ k next m', f.fetch m = (.ok k, next, m') ∧ m'.delivery.Sound ∧ next.Holds rest ∧
      (k = 0 → f.handle.upcoming f.limit = []) := by
  obtain ⟨k, next, m', fetched, sound', -, none_iff, -⟩ := f.fetch_of_sound sound
  exact ⟨k, next, m', fetched, sound', (holds.hands (hands_fetch holds.sane fetched)).2,
    none_iff.1⟩

/-- Data that leads to its end does not lead to a failure. -/
theorem Holds.not_corrupt (holds : f.Holds rest)
    (corrupt : f.inflater.step.stop? = some .corrupt) : False := by
  obtain ⟨payload, ends, -⟩ := holds.ends
  rw [Deflate.Inflater.outcome_feed_of_stop corrupt (by simp)] at ends
  cases ends

/-- Data that leads to its end does not starve when no more is to come. -/
theorem Holds.not_starved (holds : f.Holds rest)
    (starved : f.inflater.step.stop? = some .starved)
    (nothing : f.handle.upcoming f.limit = []) : False := by
  obtain ⟨payload, ends, -⟩ := holds.ends
  rw [nothing, Deflate.Inflater.feed_nil, Deflate.Inflater.outcome_of_stop starved] at ends
  cases ends

theorem Holds.deliverLast (holds : f.Holds rest) (sound : m.delivery.Sound) (before n : Nat)
    (all : f.remainder.length = f.inflater.waiting) : Gives (f.deliverLast m before n) rest n := by
  have hands := hands_deliver_of_enough (n := n) holds.sane (Or.inr all)
  unfold Inflow.deliverLast
  generalize f.deliver n = delivered at hands
  obtain ⟨bytes, next⟩ := delivered
  simp only at hands ⊢
  split
  · obtain ⟨k, last, m', fetched, sound', -⟩ := (holds.hands hands).2.fetch sound
    rw [fetched]
    exact holds.gives (hands.andThen (hands_fetch hands.sane fetched)) sound'
  · exact holds.gives hands sound

/-- Decoding and fetching in turn gives a chunk.  Every fetch leaves less to fetch. -/
theorem Holds.fill (holds : f.Holds rest) (sound : m.delivery.Sound) (before n : Nat) :
    Gives (f.fill m before n) rest n := by
  induction left : f.limit using Nat.strongRecOn generalizing m f before with
  | _ limit ih =>
      obtain ⟨reaches, stops⟩ := Deflate.Inflater.reaches_run holds.sane n
      rw [Inflow.fill]
      generalize f.inflater.run n = ran at reaches stops
      obtain ⟨inflater, stop⟩ := ran
      have decoded := holds.decode reaches
      cases stop with
      | enough =>
          exact decoded.gives (hands_deliver_of_enough decoded.sane (Or.inl stops)) sound
      | finished =>
          exact decoded.deliverLast sound before n (length_of_finished decoded.sane stops)
      | corrupt => exact (decoded.not_corrupt stops).elim
      | starved =>
          obtain ⟨k, next, m', fetched, sound', kept, ended⟩ := decoded.fetch sound
          have shorter := Inflow.limit_fetch fetched
          cases k with
          -- Nothing has come, so nothing is to come, and whole data does not starve then.
          | zero => exact (decoded.not_starved stops (ended rfl)).elim
          | succ k =>
              simp only
              split
              · rename_i failed
                rw [fetched] at failed
                cases failed
              · rename_i failed
                rw [fetched] at failed
                cases failed
              · rename_i came
                rw [fetched] at came
                cases came
                refine ih next.limit ?_ kept sound' _ rfl
                simp only at shorter
                omega

theorem Holds.readChunk (holds : f.Holds rest) (sound : m.delivery.Sound) (n : Nat) :
    Gives (f.readChunk m n) rest n := by
  unfold Inflow.readChunk
  by_cases nothing : n = 0
  · subst nothing
    exact ⟨f, m, rfl, sound, holds⟩
  · rw [if_neg nothing]
    split
    · obtain ⟨k, next, m', fetched, sound', kept, -⟩ := holds.fetch sound
      rw [fetched]
      exact kept.fill sound' 0 n
    · exact holds.fill sound 0 n

end Inflow

/-! ### Payloads of either kind -/

/-- What is left to read is `rest`. -/
def Holds : Cursor → List UInt8 → Prop
  | stored handle limit, rest => handle.upcoming limit = rest
  | deflated handle limit inflater, rest => Inflow.Holds { handle, limit, inflater } rest

/-- A chunk is the beginning of what is left, and leaves the rest. -/
theorem readChunk_of_sound {c : Cursor} {rest : List UInt8} {m : Medium} (holds : c.Holds rest)
    (sound : m.delivery.Sound) (n : Nat) :
    ∃ next m', c.readChunk m n = (.ok (rest.take n), next, m') ∧ m.ReadsTo m' ∧
      next.Holds (rest.drop n) := by
  have reads := reads_readChunk m c n
  cases c with
  | stored handle limit =>
      obtain ⟨d, -, filled⟩ := Medium.fill_of_sound sound handle (min n limit)
      have left : handle.upcoming limit = rest := holds
      have moved : (handle.upcoming (min n limit)).length = min (min n limit) handle.available :=
        Medium.length_upcoming _ _
      simp only [readChunk, filled, moved] at reads ⊢
      refine ⟨stored (handle.advance (min (min n limit) handle.available))
        (limit - min (min n limit) handle.available), _, ?_, reads, ?_⟩
      · rw [← handle.upcoming_take, left]
      · rw [← left]
        exact (handle.upcoming_drop limit n).symm
  | deflated handle limit inflater =>
      obtain ⟨next, m', given, -, behind⟩ := Inflow.Holds.readChunk holds sound n
      simp only [readChunk, given] at reads ⊢
      exact ⟨_, m', rfl, reads, behind⟩

theorem remainder_of_holds {c : Cursor} {rest : List UInt8} (holds : c.Holds rest) :
    c.Sane ∧ c.remainder = rest := by
  cases c with
  | stored handle limit => exact ⟨trivial, holds⟩
  | deflated handle limit inflater => exact ⟨Inflow.Holds.sane holds, holds.rest_eq.symm⟩

/-- Of data that can be decoded to its end, all can be read. -/
theorem whole_of_holds {c : Cursor} {rest : List UInt8} (holds : c.Holds rest) :
    c.Whole rest := by
  obtain ⟨sane, left⟩ := remainder_of_holds holds
  constructor
  · obtain ⟨next, m', read, -⟩ :=
      readChunk_of_sound holds (Medium.faultless_ofContent #[]).sound rest.length
    have yields := Yields.more .nothing read
    rw [List.nil_append, List.take_length] at yields
    exact ⟨next, yields⟩
  · intro other c' yields
    rw [← left]
    exact ⟨_, (yields.append_remainder sane).2⟩

/-! ### Opening a payload -/

/-- At the beginning of an entry's data, a cursor holds what the data stands for. -/
theorem holds_cursorAt {e : Zip.Entry} {h : Handle} {start : Nat} {payload : List UInt8}
    (decoded : Archive.decode e.method (h.content.slice start (start + e.compressedSize)) =
      .ok payload) : (e.cursorAt (h.moveTo start)).Holds payload := by
  have ahead : (h.moveTo start).upcoming e.compressedSize =
      h.content.slice start (start + e.compressedSize) := rfl
  unfold Archive.decode at decoded
  unfold Zip.Entry.cursorAt
  split at decoded
  · rename_i method
    rw [if_pos method]
    cases decoded
    exact ahead
  · rename_i method
    rw [if_neg method]
    refine ⟨⟨rfl, Nat.zero_le _⟩, payload, ?_, rfl⟩
    rw [← ahead] at decoded
    exact Deflate.outcome_of_inflate decoded

end Cursor

/-- A lookup for the path ends at the entry: all before it can be visited and do not fit.  Its
data can be read piece by piece. -/
structure Zip.Entry.Leads (e : Zip.Entry) (c : Content) (reach : Option Nat) (path : String) :
    Prop where
  listed : ∃ directory passed later, Zip.Directory.read c = .ok directory ∧
    directory.entries.toList = passed ++ e :: later ∧
    (∀ e' ∈ passed, ∃ start, e'.dataStart c reach = .ok start) ∧
    ∀ e' ∈ passed, (Pattern.exactly path).selects e' = false
  selected : (Pattern.exactly path).selects e = true
  plain : e.isEncrypted = false
  supported : e.method.isSupported = true

theorem locateIn_of_leads {c : Content} {reach : Option Nat} {path : String} {e : Zip.Entry}
    {start : Nat} (leads : e.Leads c reach path) (begins : e.dataStart c reach = .ok start) :
    ∃ a found, locateIn c reach (.exactly path) = .ok (some (a, found)) ∧
      a.handle = { content := c } ∧ a.directory.entries[found.index]? = some e := by
  obtain ⟨directory, passed, later, read, entries, readable, unfit⟩ := leads.listed
  refine ⟨{ directory, handle := { content := c } }, { index := passed.length, name := e.name },
    ?_, rfl, ?_⟩
  · have first : firstMatch c reach (.exactly path) 0 directory.entries.toList =
        .ok (some { index := passed.length, name := e.name }) := by
      rw [entries, firstMatch_append_of_passed 0 readable unfit, firstMatch]
      simp only [begins, leads.selected, if_true, Nat.zero_add]
    simp only [locateIn, read, first]
  · change directory.entries[passed.length]? = some e
    rw [← Array.getElem?_toList, entries]
    simp

theorem Archive.intoCursor_of_sound [Zip.Codecs] {m : Medium} (sound : m.delivery.Sound)
    {a : Archive} {found : Located} {e : Zip.Entry} {payload : List UInt8}
    (here : a.directory.entries[found.index]? = some e) (plain : e.isEncrypted = false)
    (supported : e.method.isSupported = true)
    (stands : e.payload a.handle.content m.reach = .ok payload) :
    ∃ cursor m', a.intoCursor m found = (.ok cursor, m') ∧ m.ReadsTo m' ∧
      cursor.Holds payload := by
  obtain ⟨start, begins, decoded⟩ := Zip.Entry.payload_eq_ok_of_supported supported stands
  obtain ⟨d, sound', opened⟩ := intoCursor_of_begins sound here begins
  rw [plain, supported] at opened
  exact ⟨_, _, opened, Medium.ReadsTo.of_sound m sound', Cursor.holds_cursorAt decoded⟩

/-- On a medium that gives no trouble, a package's stream is opened with one open, and what is
left to read is its payload. -/
theorem FullStream.openCursor_of_faultless [Zip.Codecs] {m : Medium} {c : Content}
    (faultless : m.Faultless c) (s : FullStream) (layout : Layout) {e : Zip.Entry}
    {payload : List UInt8} (leads : e.Leads c m.reach (layout.streamPath s.package))
    (stands : e.payload c m.reach = .ok payload) :
    ∃ cursor m', s.openCursor layout m = (.ok cursor, m') ∧ m'.Faultless c ∧
      m'.reach = m.reach ∧ m'.opens = m.opens + 1 ∧ cursor.Holds payload := by
  obtain ⟨start, begins, -⟩ := Zip.Entry.payload_eq_ok stands
  obtain ⟨a, found, first, handle, here⟩ := locateIn_of_leads leads begins
  obtain ⟨m₁, faultless₁, reach₁, opens, located⟩ :=
    locate_of_faultless faultless (.exactly (layout.streamPath s.package))
  have stands' : e.payload a.handle.content m₁.reach = .ok payload := by
    rw [handle, reach₁]
    exact stands
  obtain ⟨cursor, m₂, opened, reads, holds⟩ := Archive.intoCursor_of_sound faultless₁.sound here
    leads.plain leads.supported stands'
  refine ⟨cursor, m₂, ?_, reads.leadsTo.faultless c faultless₁, ?_, ?_, holds⟩
  · simp only [openCursor, located, first, opened]
  · rw [reads.reach, reach₁]
  · rw [reads.opens, opens]

end BackupRestore
