/-
Module: BackupRestore.Proofs.Cursor
Purpose: What opening and reading a payload does to the medium it is read from.
Main exports: Medium.GivesBack, Cursor.reads_readChunk, Cursor.openAt_cases,
  Archive.intoCursor_cases, FullStream.openCursor_cases, Cursor.Begins,
  Cursor.openAt_of_begins, Archive.intoCursor_of_begins, FullStream.openCursor_eq_ok
-/
import BackupRestore.Proofs.Lookup
import BackupRestore.Stream

namespace BackupRestore

/-!
A cursor takes over the handle of the archive in which its entry was found.  So opening one
opens no handle: it keeps the handle, or fails at any of its steps and gives it back.  Reading
through a cursor does neither.
-/

/-- The second medium is the first after some reads and the return of one handle. -/
def Medium.GivesBack (m m' : Medium) : Prop := ∃ m₁, m.ReadsTo m₁ ∧ m' = m₁.release

namespace Medium

variable {m m₁ m' : Medium}

theorem GivesBack.leadsTo (back : m.GivesBack m') : m.LeadsTo m' := by
  obtain ⟨m₁, reads, rfl⟩ := back
  exact reads.leadsTo.release

theorem GivesBack.live (back : m.GivesBack m') : m'.live = m.live - 1 := by
  obtain ⟨m₁, reads, rfl⟩ := back
  rw [release_live, reads.live]

theorem ReadsTo.givesBack (reads : m.ReadsTo m') : m.GivesBack m'.release := ⟨m', reads, rfl⟩

theorem ReadsTo.trans_givesBack (reads : m.ReadsTo m₁) (back : m₁.GivesBack m') :
    m.GivesBack m' := by
  obtain ⟨m₂, further, rfl⟩ := back
  exact (reads.trans further).givesBack

end Medium

namespace Cursor

/-! ### Reading -/

theorem Inflow.reads_fetch (m : Medium) (f : Inflow) : m.ReadsTo (f.fetch m).2.2 := by
  unfold fetch
  split
  · exact .refl m
  · have reads := m.reads_read f.handle (min f.limit fetchSize)
    split <;> rename_i eq <;> rwa [eq] at reads

theorem Inflow.reads_deliverLast (m : Medium) (f : Inflow) (before n : Nat) :
    m.ReadsTo (f.deliverLast m before n).2.2 := by
  unfold deliverLast
  generalize f.deliver n = delivered
  obtain ⟨bytes, next⟩ := delivered
  simp only
  split
  · have fetched := Inflow.reads_fetch m next
    split <;> rename_i eq <;> rwa [eq] at fetched
  · exact .refl m

/-- The steps of decoding and fetching in turn. -/
theorem Inflow.fill_eq (m : Medium) (f : Inflow) (before n : Nat) :
    f.fill m before n =
      match f.inflater.run n with
      | (inflater, .enough) =>
          (.ok (({ f with inflater } : Inflow).deliver n).1,
            (({ f with inflater } : Inflow).deliver n).2, m)
      | (inflater, .finished) => ({ f with inflater } : Inflow).deliverLast m before n
      | (inflater, .corrupt) =>
          (.error .corruptDeflate, ({ f with inflater } : Inflow).forget, m)
      | (inflater, .starved) =>
          match ({ f with inflater } : Inflow).fetch m with
          | (.error cause, f, m) => (.error cause, f.forget, m)
          | (.ok 0, f, m) => (.error .incompleteDeflate, f.forget, m)
          | (.ok (_ + 1), next, m) => next.fill m inflater.waiting n := by
  rw [Inflow.fill]
  rcases f.inflater.run n with ⟨inflater, stop⟩
  cases stop with
  | starved =>
      simp only
      split <;> rename_i eq <;> rw [eq]
  | _ => rfl

theorem Inflow.reads_fill (m : Medium) (f : Inflow) (before n : Nat) :
    m.ReadsTo (f.fill m before n).2.2 := by
  induction left : f.limit using Nat.strongRecOn generalizing m f before with
  | _ limit ih =>
      rw [Inflow.fill]
      generalize f.inflater.run n = ran
      obtain ⟨inflater, stop⟩ := ran
      cases stop with
      | enough => exact .refl m
      | finished => exact reads_deliverLast m _ before n
      | corrupt => exact .refl m
      | starved =>
          have fetched := Inflow.reads_fetch m { f with inflater }
          simp only
          split
          · rename_i eq
            rwa [eq] at fetched
          · rename_i eq
            rwa [eq] at fetched
          · rename_i k next m₁ eq
            rw [eq] at fetched
            have shorter := Inflow.limit_fetch eq
            simp only at shorter
            exact fetched.trans (ih next.limit (by omega) m₁ next _ rfl)

theorem Inflow.reads_readChunk (m : Medium) (f : Inflow) (n : Nat) :
    m.ReadsTo (f.readChunk m n).2.2 := by
  unfold readChunk
  split
  · exact .refl m
  · split
    · have fetched := Inflow.reads_fetch m f
      split
      · rename_i eq
        rwa [eq] at fetched
      · rename_i k next m₁ eq
        rw [eq] at fetched
        exact fetched.trans (reads_fill m₁ next 0 n)
    · exact reads_fill m f 0 n

theorem reads_readChunk (m : Medium) (c : Cursor) (n : Nat) :
    m.ReadsTo (c.readChunk m n).2.2 := by
  cases c with
  | stored handle limit =>
      have filled := m.reads_fill handle (min n limit)
      simp only [readChunk]
      split <;> rename_i eq <;> rwa [eq] at filled
  | deflated handle limit inflater => exact Inflow.reads_readChunk m _ n

/-! ### Opening -/

/-- A cursor keeps the handle that it is given, or is not opened and gives it back. -/
theorem openAt_cases (m : Medium) (h : Handle) (path : String) (span : PayloadSpan) :
    (∃ e m', openAt m h path span = (.error e, m') ∧ m.GivesBack m') ∨
    (∃ cursor m', openAt m h path span = (.ok cursor, m') ∧ m.ReadsTo m') := by
  unfold openAt
  split
  · exact Or.inl ⟨_, _, rfl, Medium.ReadsTo.givesBack (.refl m)⟩
  · split
    · exact Or.inl ⟨_, _, rfl, Medium.ReadsTo.givesBack (.refl m)⟩
    · split
      · exact Or.inl ⟨_, _, rfl, Medium.ReadsTo.givesBack (.refl m)⟩
      · rename_i moved _
        have reads := m.reads_readExactly moved Zip.localHeaderLength
        split
        · rename_i eq
          rw [eq] at reads
          exact Or.inl ⟨_, _, rfl, reads.givesBack⟩
        · rename_i eq
          rw [eq] at reads
          simp only
          split
          · exact Or.inl ⟨_, _, rfl, reads.givesBack⟩
          · split
            · exact Or.inl ⟨_, _, rfl, reads.givesBack⟩
            · split
              · exact Or.inr ⟨_, _, rfl, reads⟩
              · exact Or.inr ⟨_, _, rfl, reads⟩

end Cursor

/-- The cursor at the beginning of an entry's data. -/
def Zip.Entry.cursorAt (e : Zip.Entry) (handle : Handle) : Cursor :=
  if e.method = .stored then .stored handle e.compressedSize
  else .deflated handle e.compressedSize {}

/-- A cursor that is opened on any medium stands at the beginning of the entry's data. -/
theorem Cursor.openAt_eq_ok {m m' : Medium} {h : Handle} {path : String} {e : Zip.Entry}
    {cursor : Cursor} (opened : openAt m h path e.span = (.ok cursor, m')) :
    ∃ start, e.dataStart h.content m.reach = .ok start ∧ cursor = e.cursorAt (h.moveTo start) := by
  unfold openAt at opened
  split at opened
  · cases opened
  · split at opened
    · cases opened
    · split at opened
      · cases opened
      · rename_i moved sought
        obtain ⟨reachable, rfl⟩ := Medium.seek_eq_ok sought
        have reads := m.reads_readExactly (h.moveTo e.span.headerStart) Zip.localHeaderLength
        split at opened
        · cases opened
        · rename_i header after m₁ read
          rw [read] at reads
          obtain ⟨bytes, whole⟩ := Medium.readExactly_eq_ok read
          simp only at opened
          split at opened
          · cases opened
          · rename_i signed
            split at opened
            · cases opened
            · rename_i handle sought'
              obtain ⟨within, rfl⟩ := Medium.seek_eq_ok sought'
              rw [show m₁.reach = m.reach from reads.reach] at within
              refine ⟨e.headerStart + Zip.localHeaderLength + Zip.localTail header, ?_, ?_⟩
              · have slice : header = h.content.slice e.headerStart
                    (e.headerStart + Zip.localHeaderLength) := bytes
                have fits := Classical.not_not.1 signed
                have reachable : m.reach.any (· < e.headerStart) = false := reachable
                have within : m.reach.any
                    (· < e.headerStart + Zip.localHeaderLength + Zip.localTail header) = false :=
                  within
                simp only [Zip.Entry.dataStart, ← slice, reachable, whole, fits, within,
                  Bool.false_eq_true, if_false, and_self, if_true]
              · unfold Zip.Entry.cursorAt
                split at opened <;> rename_i method <;> cases opened
                · exact (if_pos method).symm
                · exact (if_neg method).symm

/-- Where no read fails, a cursor is opened on every entry that can be visited and whose data can
be read piece by piece. -/
theorem Cursor.openAt_of_begins {m : Medium} (sound : m.delivery.Sound) {e : Zip.Entry}
    {start : Nat} (h : Handle) (path : String) (plain : e.isEncrypted = false)
    (supported : e.method.isSupported = true)
    (begins : e.dataStart h.content m.reach = .ok start) :
    ∃ delivery : Delivery, delivery.Sound ∧
      openAt m h path e.span = (.ok (e.cursorAt (h.moveTo start)), { m with delivery }) := by
  obtain ⟨header, slice, whole, signed, place, reachable, within⟩ :=
    Zip.Entry.dataStart_eq_ok begins
  obtain ⟨d, sound', read⟩ := Medium.readExactly_of_sound sound (h.moveTo e.headerStart)
    Zip.localHeaderLength
  have upcoming : (h.moveTo e.headerStart).upcoming Zip.localHeaderLength = header := slice.symm
  rw [upcoming, if_pos whole] at read
  refine ⟨d, sound', ?_⟩
  unfold openAt Zip.Entry.cursorAt
  simp only [Zip.Entry.span, plain, supported, Medium.seek, reachable, read, signed, ← place,
    within, Bool.false_eq_true, if_false, Bool.not_true, ne_eq, not_true_eq_false]
  split <;> rfl

theorem Archive.intoCursor_cases (a : Archive) (m : Medium) (found : Located) :
    (∃ e m', a.intoCursor m found = (.error e, m') ∧ m.GivesBack m') ∨
    (∃ cursor m', a.intoCursor m found = (.ok cursor, m') ∧ m.ReadsTo m') := by
  unfold intoCursor
  split
  · exact Or.inl ⟨_, _, rfl, Medium.ReadsTo.givesBack (.refl m)⟩
  · rename_i e _
    have visited := a.reads_visit m e
    split
    · rename_i eq
      rw [eq] at visited
      exact Or.inl ⟨_, _, rfl, visited.givesBack⟩
    · rename_i m₁ eq
      rw [eq] at visited
      rcases Cursor.openAt_cases m₁ a.handle found.name e.span with
        ⟨cause, m₂, opened, back⟩ | ⟨cursor, m₂, opened, reads⟩
      · exact Or.inl ⟨cause, m₂, opened, visited.trans_givesBack back⟩
      · exact Or.inr ⟨cursor, m₂, opened, visited.trans reads⟩

/-- A cursor over an entry of an archive stands at the beginning of that entry's data. -/
theorem Archive.intoCursor_eq_ok {a : Archive} {m m' : Medium} {found : Located}
    {cursor : Cursor} (opened : a.intoCursor m found = (.ok cursor, m')) :
    ∃ e start, a.directory.entries[found.index]? = some e ∧
      e.dataStart a.handle.content m.reach = .ok start ∧
      cursor = e.cursorAt (a.handle.moveTo start) := by
  unfold intoCursor at opened
  split at opened
  · cases opened
  · rename_i e here
    have reads := a.reads_visit m e
    split at opened
    · cases opened
    · rename_i handle m₁ visited
      rw [visited] at reads
      obtain ⟨start, begins, at_start⟩ := Cursor.openAt_eq_ok opened
      rw [show m₁.reach = m.reach from reads.reach] at begins
      exact ⟨e, start, here, begins, at_start⟩

/-- Where no read fails, opening an entry that can be visited fails only for what the directory
says of it. -/
theorem Archive.intoCursor_of_begins {m : Medium} (sound : m.delivery.Sound) {a : Archive}
    {found : Located} {e : Zip.Entry} {start : Nat}
    (here : a.directory.entries[found.index]? = some e)
    (begins : e.dataStart a.handle.content m.reach = .ok start) :
    ∃ delivery : Delivery, delivery.Sound ∧ a.intoCursor m found =
      if e.isEncrypted then (.error (.encryptedEntry found.name), { m with delivery }.release)
      else if !e.method.isSupported then
        (.error (.unsupportedCompression found.name e.method.name), { m with delivery }.release)
      else (.ok (e.cursorAt (a.handle.moveTo start)), { m with delivery }) := by
  obtain ⟨d, sound₁, visited⟩ := visit_of_sound sound a e
  simp only [intoCursor, here, visited, begins, Except.map]
  cases plain : e.isEncrypted with
  | true =>
      refine ⟨d, sound₁, ?_⟩
      simp only [Cursor.openAt, Zip.Entry.span, plain, if_true]
  | false =>
      cases supported : e.method.isSupported with
      | false =>
          refine ⟨d, sound₁, ?_⟩
          simp only [Cursor.openAt, Zip.Entry.span, plain, supported, Bool.false_eq_true, if_false,
            Bool.not_false, if_true]
      | true =>
          obtain ⟨d', sound₂, opened⟩ := Cursor.openAt_of_begins (m := { m with delivery := d })
            sound₁ a.handle found.name plain supported begins
          exact ⟨d', sound₂, opened⟩

/-- A stream that has been opened holds one handle, and one that has not holds none. -/
theorem FullStream.openCursor_cases (s : FullStream) (layout : Layout) (m : Medium) :
    (∃ e m', s.openCursor layout m = (.error e, m') ∧ m.LeadsTo m' ∧ m'.live = m.live) ∨
    (∃ cursor m', s.openCursor layout m = (.ok cursor, m') ∧ m.LeadsTo m' ∧
      m'.live = m.live + 1) := by
  unfold openCursor
  rcases locate_cases m (.exactly (layout.streamPath s.package)) with
    ⟨e, m₁, located, leads, live⟩ | ⟨m₁, located, leads, live⟩ |
    ⟨a, found, m₁, located, leads, live⟩
  · exact Or.inl ⟨e, m₁, by rw [located], leads, live⟩
  · exact Or.inl ⟨s.rejection, m₁, by rw [located], leads, live⟩
  · rw [located]
    rcases a.intoCursor_cases m₁ found with
      ⟨e, m₂, opened, back⟩ | ⟨cursor, m₂, opened, reads⟩
    · refine Or.inl ⟨e, m₂, opened, leads.trans back.leadsTo, ?_⟩
      rw [back.live, live]
      rfl
    · exact Or.inr ⟨cursor, m₂, opened, leads.trans reads.leadsTo, reads.live.trans live⟩

/-- Where a package's stream begins in an archive with the bytes `c`. -/
inductive Cursor.Begins (c : Content) (reach : Option Nat) (path : String) (cursor : Cursor) :
    Prop where
  | entry {a : Archive} {found : Located} {e : Zip.Entry} {start : Nat}
      (located : locateIn c reach (.exactly path) = .ok (some (a, found)))
      (here : a.directory.entries[found.index]? = some e)
      (begins : e.dataStart a.handle.content reach = .ok start)
      (stands : cursor = e.cursorAt (a.handle.moveTo start))

/-- A stream that is opened, on whatever medium, stands where the bytes of the archive say. -/
theorem FullStream.openCursor_eq_ok {s : FullStream} {layout : Layout} {m m' : Medium}
    {cursor : Cursor} (opened : s.openCursor layout m = (.ok cursor, m')) :
    ∃ c, m.content = .ok c ∧ cursor.Begins c m.reach (layout.streamPath s.package) := by
  unfold openCursor at opened
  split at opened
  · cases opened
  · cases opened
  · rename_i a found m₁ located
    obtain ⟨c, content, -, locatedIn⟩ := locate_eq_ok located
    have reach : m₁.reach = m.reach := by
      rcases locate_cases m (.exactly (layout.streamPath s.package)) with
        ⟨e, m₂, eq, leads, -⟩ | ⟨m₂, eq, leads, -⟩ | ⟨a', found', m₂, eq, leads, -⟩ <;>
        rw [located] at eq <;> cases eq
      exact leads.reach
    obtain ⟨e, start, here, begins, stands⟩ := Archive.intoCursor_eq_ok opened
    rw [reach] at begins
    exact ⟨c, content, .entry locatedIn here begins stands⟩

/-- There is one place where a stream begins. -/
theorem Cursor.Begins.unique {c : Content} {reach : Option Nat} {path : String}
    {cursor cursor' : Cursor} (one : cursor.Begins c reach path)
    (other : cursor'.Begins c reach path) : cursor = cursor' := by
  obtain ⟨located, here, begins, rfl⟩ := one
  obtain ⟨located', here', begins', rfl⟩ := other
  rw [located] at located'
  cases located'
  rw [here] at here'
  cases here'
  rw [begins] at begins'
  cases begins'
  rfl

end BackupRestore
