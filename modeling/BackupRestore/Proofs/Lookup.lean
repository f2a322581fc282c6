/-
Module: BackupRestore.Proofs.Lookup
Purpose: What a lookup gives and how many handles it leaves open.
Main exports: Pattern.selects, Zip.Entry.dataStart, firstMatch, firstMatch_eq_some,
  Archive.openOn_cases, locate_cases, leads_classify, locateIn, classifyIn,
  locateIn_eq_none_iff, locateIn_eq_some, classifyIn_cases, locate_of_faultless,
  classify_of_faultless, Sample.read_content
-/
import BackupRestore.Classify
import BackupRestore.Proofs.Reading

namespace BackupRestore

/-!
A lookup is a function of the bytes of the archive: `dataStart` says for one entry whether
it can be visited, and `firstMatch` which entry of a directory a scan ends at.  On a medium
that gives no trouble, a scan finds just that.  On any medium, a lookup leaves a handle open
exactly if it gives the archive that holds it.
-/

/-- A lookup for the pattern ends at this entry: its name fits, and it is no directory. -/
def Pattern.selects (p : Pattern) (e : Zip.Entry) : Bool :=
  !e.isDirectory && p.matches e.name

theorem Pattern.selects_under_iff {beginning : String} {e : Zip.Entry} :
    (Pattern.under beginning).selects e = true ↔
      e.isDirectory = false ∧ beginning.toList <+: e.name.toList := by
  simp only [selects, Pattern.matches, Bool.and_eq_true, Bool.not_eq_true',
    List.isPrefixOf_iff_prefix]

theorem Pattern.selects_exactly_iff {path : String} {e : Zip.Entry} :
    (Pattern.exactly path).selects e = true ↔ e.isDirectory = false ∧ e.name = path := by
  simp only [selects, Pattern.matches, Bool.and_eq_true, Bool.not_eq_true', beq_iff_eq]

/-- Where an entry's data begins.  There must be a header in front of it, at the place
that the directory gives. -/
def Zip.Entry.dataStart (e : Zip.Entry) (c : Content) (reach : Option Nat) :
    Except ArchiveError Nat :=
  if reach.any (· < e.headerStart) then .error (.io .placeOutOfReach)
  else
    let header := c.slice e.headerStart (e.headerStart + Zip.localHeaderLength)
    if header.length = Zip.localHeaderLength ∧ fieldAt header 0 4 = Zip.localSignature then
      let start := e.headerStart + Zip.localHeaderLength + Zip.localTail header
      if reach.any (· < start) then .error (.io .placeOutOfReach) else .ok start
    else .error .invalidArchive

/-- An entry whose data begins somewhere has a header there, and none of it is out of reach. -/
theorem Zip.Entry.dataStart_eq_ok {e : Zip.Entry} {c : Content} {reach : Option Nat} {start : Nat}
    (begins : e.dataStart c reach = .ok start) :
    ∃ header, header = c.slice e.headerStart (e.headerStart + Zip.localHeaderLength) ∧
      header.length = Zip.localHeaderLength ∧ fieldAt header 0 4 = Zip.localSignature ∧
      start = e.headerStart + Zip.localHeaderLength + Zip.localTail header ∧
      reach.any (· < e.headerStart) = false ∧ reach.any (· < start) = false := by
  unfold dataStart at begins
  split at begins
  · cases begins
  · rename_i reachable
    simp only at begins
    split at begins
    · rename_i fits
      split at begins
      · cases begins
      · rename_i within
        cases begins
        exact ⟨_, rfl, fits.1, fits.2, rfl, eq_false_of_ne_true reachable,
          eq_false_of_ne_true within⟩
    · cases begins

/-- The first of some entries at which a lookup ends, where the first of them has the
given place in the directory.  An entry before it that cannot be visited ends the lookup. -/
def firstMatch (c : Content) (reach : Option Nat) (p : Pattern) :
    (index : Nat) → List Zip.Entry → Except RestoreError (Option Located)
  | _, [] => .ok none
  | index, e :: rest =>
      match e.dataStart c reach with
      | .error cause => .error (.archive cause)
      | .ok _ =>
          if p.selects e then .ok (some { index, name := e.name })
          else firstMatch c reach p (index + 1) rest

/-- Entries that can be visited and do not fit are stepped over. -/
theorem firstMatch_append_of_passed {c : Content} {reach : Option Nat} {p : Pattern}
    {passed rest : List Zip.Entry} (index : Nat)
    (readable : ∀ e ∈ passed, ∃ start, e.dataStart c reach = .ok start)
    (unfit : ∀ e ∈ passed, p.selects e = false) :
    firstMatch c reach p index (passed ++ rest) =
      firstMatch c reach p (index + passed.length) rest := by
  induction passed generalizing index with
  | nil => rfl
  | cons e passed ih =>
      obtain ⟨start, here⟩ := readable e List.mem_cons_self
      have later := ih (index + 1)
        (fun e' member => readable e' (List.mem_cons_of_mem _ member))
        (fun e' member => unfit e' (List.mem_cons_of_mem _ member))
      simp only [List.cons_append, firstMatch, here, unfit e List.mem_cons_self,
        List.length_cons, Bool.false_eq_true, if_false, later]
      congr 1
      omega

/-- A lookup finds nothing exactly if it can step over all entries. -/
theorem firstMatch_eq_none_iff {c : Content} {reach : Option Nat} {p : Pattern}
    {entries : List Zip.Entry} (index : Nat) :
    firstMatch c reach p index entries = .ok none ↔
      ∀ e ∈ entries, (∃ start, e.dataStart c reach = .ok start) ∧ p.selects e = false := by
  induction entries generalizing index with
  | nil => simp [firstMatch]
  | cons e rest ih =>
      rw [firstMatch, List.forall_mem_cons]
      cases e.dataStart c reach with
      | error cause => simp
      | ok start =>
          cases p.selects e with
          | true => simp
          | false => simp [ih]

/-- A lookup that finds an entry has stepped over those before it. -/
theorem firstMatch_eq_some {c : Content} {reach : Option Nat} {p : Pattern}
    {entries : List Zip.Entry} {index : Nat} {found : Located}
    (first : firstMatch c reach p index entries = .ok (some found)) :
    ∃ passed e later start, entries = passed ++ e :: later ∧
      (∀ e' ∈ passed, p.selects e' = false) ∧ p.selects e = true ∧
      e.dataStart c reach = .ok start ∧
      found = { index := index + passed.length, name := e.name } := by
  induction entries generalizing index with
  | nil => cases first
  | cons e rest ih =>
      unfold firstMatch at first
      split at first
      · cases first
      · rename_i start begins
        split at first
        · rename_i selected
          cases first
          exact ⟨[], e, rest, start, rfl, by simp, selected, begins, rfl⟩
        · rename_i unfit
          obtain ⟨passed, e', later, start', rfl, unfit', selected, begins', rfl⟩ := ih first
          refine ⟨e :: passed, e', later, start', rfl, ?_, selected, begins', ?_⟩
          · rw [List.forall_mem_cons]
            exact ⟨eq_false_of_ne_true unfit, unfit'⟩
          · rw [List.length_cons, Nat.add_right_comm, Nat.add_assoc]

/-- A lookup comes to an end if every entry can be visited. -/
theorem firstMatch_of_visitable {c : Content} {reach : Option Nat} {p : Pattern}
    {entries : List Zip.Entry} (index : Nat)
    (visitable : ∀ e ∈ entries, ∃ start, e.dataStart c reach = .ok start) :
    ∃ answer, firstMatch c reach p index entries = .ok answer := by
  induction entries generalizing index with
  | nil => exact ⟨none, rfl⟩
  | cons e rest ih =>
      rw [List.forall_mem_cons] at visitable
      obtain ⟨⟨start, begins⟩, later⟩ := visitable
      rw [firstMatch, begins]
      cases p.selects e with
      | true => exact ⟨_, rfl⟩
      | false => exact ih (index + 1) later

namespace Archive

/-! ### Visiting and scanning on any medium -/

theorem reads_visit (a : Archive) (m : Medium) (e : Zip.Entry) : m.ReadsTo (a.visit m e).2 := by
  unfold visit
  split
  · exact .refl m
  · rename_i handle _
    have filled := m.reads_fill handle Zip.localHeaderLength
    split
    · rename_i eq
      rwa [eq] at filled
    · rename_i eq
      rw [eq] at filled
      split <;> exact filled

/-- An entry has been visited only if there is a header in front of its data. -/
theorem visit_eq_ok {a : Archive} {m m' : Medium} {e : Zip.Entry} {handle : Handle}
    (visited : a.visit m e = (.ok handle, m')) :
    ∃ start, e.dataStart a.handle.content m.reach = .ok start ∧
      handle = a.handle.moveTo start := by
  unfold visit at visited
  split at visited
  · simp at visited
  · rename_i moved sought
    split at visited
    · simp at visited
    · rename_i header after m₁ filled
      have reads := m.reads_fill moved Zip.localHeaderLength
      rw [filled] at reads
      obtain ⟨bytes, -⟩ := Medium.fill_of_none filled
      split at visited
      · rename_i fits
        simp only [Medium.seek, Prod.mk.injEq] at visited sought
        split at sought
        · simp at sought
        · rename_i reachable
          simp only [Except.ok.injEq] at sought
          subst sought
          have slice : header =
              a.handle.content.slice e.headerStart (e.headerStart + Zip.localHeaderLength) := by
            rw [bytes]
            rfl
          obtain ⟨answer, -⟩ := visited
          rw [show m₁.reach = m.reach from reads.reach] at answer
          split at answer
          · cases answer
          · rename_i within
            injection answer with answer
            refine ⟨_, ?_, answer.symm⟩
            simp only [Zip.Entry.dataStart, ← slice, fits, and_self, if_true, reachable, within,
              Bool.false_eq_true, if_false]
      · simp at visited

theorem reads_scan (a : Archive) (p : Pattern) (count index : Nat) (m : Medium) :
    m.ReadsTo (a.scan p count index m).2 := by
  induction count generalizing index m with
  | zero => exact .refl m
  | succ count ih =>
      unfold scan
      split
      · exact .refl m
      · rename_i e _
        have visited := a.reads_visit m e
        split
        · rename_i eq
          rwa [eq] at visited
        · rename_i eq
          rw [eq] at visited
          split
          · exact visited
          · exact visited.trans (ih (index + 1) _)

theorem reads_find (a : Archive) (m : Medium) (start : Nat) (p : Pattern) :
    m.ReadsTo (a.find m start p).2 :=
  a.reads_scan p _ start m

theorem drop_entries {a : Archive} {index : Nat} {e : Zip.Entry}
    (here : a.directory.entries[index]? = some e) :
    a.directory.entries.toList.drop index = e :: a.directory.entries.toList.drop (index + 1) := by
  obtain ⟨within, rfl⟩ := Array.getElem?_eq_some_iff.1 here
  rw [List.drop_eq_getElem_cons (by simpa using within), Array.getElem_toList]

theorem entries_of_drop {a : Archive} {index : Nat} {e : Zip.Entry} {rest : List Zip.Entry}
    (left : a.directory.entries.toList.drop index = e :: rest) :
    a.directory.entries[index]? = some e ∧
      a.directory.entries.toList.drop (index + 1) = rest := by
  constructor
  · rw [← Array.getElem?_toList, ← List.head?_drop, left, List.head?_cons]
  · rw [← List.tail_drop, left, List.tail_cons]

theorem drop_entries_of_none {a : Archive} {index : Nat}
    (none_left : a.directory.entries[index]? = none) :
    a.directory.entries.toList.drop index = [] := by
  rw [List.drop_eq_nil_iff, Array.length_toList]
  exact Array.getElem?_eq_none_iff.1 none_left

/-- A scan that succeeds ends where the bytes of the archive say. -/
theorem scan_eq_ok {a : Archive} {p : Pattern} {count index : Nat} {m m' : Medium}
    {answer : Option Located} (scanned : a.scan p count index m = (.ok answer, m')) :
    firstMatch a.handle.content m.reach p index
      ((a.directory.entries.toList.drop index).take count) = .ok answer := by
  induction count generalizing index m with
  | zero =>
      cases scanned
      rfl
  | succ count ih =>
      unfold scan at scanned
      split at scanned
      · rename_i none_left
        cases scanned
        rw [drop_entries_of_none none_left]
        rfl
      · rename_i e here
        rw [drop_entries here, List.take_succ_cons, firstMatch]
        have reads := a.reads_visit m e
        split at scanned
        · cases scanned
        · rename_i handle m₁ visited
          rw [visited] at reads
          obtain ⟨start, begins, -⟩ := visit_eq_ok visited
          simp only [begins]
          split at scanned
          · rename_i fits
            have selected : p.selects e = true := fits
            cases scanned
            rw [if_pos selected]
          · rename_i unfit
            have passed : ¬p.selects e = true := unfit
            rw [if_neg passed, ← reads.reach]
            exact ih scanned

/-! ### Visiting and scanning where no read fails -/

theorem visit_of_sound {m : Medium} (sound : m.delivery.Sound) (a : Archive) (e : Zip.Entry) :
    ∃ delivery : Delivery, delivery.Sound ∧ a.visit m e =
      ((e.dataStart a.handle.content m.reach).map a.handle.moveTo, { m with delivery }) := by
  unfold visit Zip.Entry.dataStart
  by_cases reachable : m.reach.any (· < e.headerStart) = true
  · refine ⟨m.delivery, sound, ?_⟩
    simp only [Medium.seek, reachable, if_true]
    rfl
  · obtain ⟨d, sound', filled⟩ :=
      Medium.fill_of_sound sound (a.handle.moveTo e.headerStart) Zip.localHeaderLength
    refine ⟨d, sound', ?_⟩
    have slice : (a.handle.moveTo e.headerStart).upcoming Zip.localHeaderLength =
        a.handle.content.slice e.headerStart (e.headerStart + Zip.localHeaderLength) := rfl
    simp only [Medium.seek, reachable, Bool.false_eq_true, if_false, filled, slice]
    split
    · split <;> rfl
    · rfl

theorem scan_of_sound (a : Archive) (p : Pattern) (count index : Nat) {m : Medium}
    (sound : m.delivery.Sound) :
    ∃ delivery : Delivery, delivery.Sound ∧ a.scan p count index m =
      (firstMatch a.handle.content m.reach p index
        ((a.directory.entries.toList.drop index).take count), { m with delivery }) := by
  induction count generalizing index m with
  | zero => exact ⟨m.delivery, sound, rfl⟩
  | succ count ih =>
      unfold scan
      cases here : a.directory.entries[index]? with
      | none =>
          refine ⟨m.delivery, sound, ?_⟩
          simp [drop_entries_of_none here, firstMatch]
      | some e =>
          obtain ⟨d, sound', visited⟩ := visit_of_sound sound a e
          rw [drop_entries here, List.take_succ_cons, firstMatch]
          simp only [visited]
          cases e.dataStart a.handle.content m.reach with
          | error cause => exact ⟨d, sound', rfl⟩
          | ok start =>
              simp only [Except.map]
              change ∃ delivery : Delivery, delivery.Sound ∧ (if p.selects e then _ else _) = _
              cases p.selects e with
              | true => exact ⟨d, sound', rfl⟩
              | false =>
                  obtain ⟨d', sound'', scanned⟩ :=
                    ih (index + 1) (m := { m with delivery := d }) sound'
                  exact ⟨d', sound'', scanned⟩

theorem find_of_sound (a : Archive) {m : Medium} (sound : m.delivery.Sound) (start : Nat)
    (p : Pattern) :
    ∃ delivery : Delivery, delivery.Sound ∧ a.find m start p =
      (firstMatch a.handle.content m.reach p start (a.directory.entries.toList.drop start),
        { m with delivery }) := by
  obtain ⟨d, sound', scanned⟩ := a.scan_of_sound p (a.size - start) start sound
  refine ⟨d, sound', ?_⟩
  rw [find, scanned, List.take_of_length_le (by simp [size])]

/-! ### Opening -/

/-- Opening an archive that fails leaves no handle open, and opening one that succeeds
leaves one: the handle of an archive whose directory has been read from the medium. -/
theorem openOn_cases (m : Medium) :
    (∃ e m', openOn m = (.error e, m') ∧ m.LeadsTo m' ∧ m'.live = m.live) ∨
    (∃ a m', openOn m = (.ok a, m') ∧ m.LeadsTo m' ∧ m'.live = m.live + 1 ∧
      m'.opens = m.opens + 1 ∧ m.content = .ok a.handle.content ∧
      Zip.Directory.read a.handle.content = .ok a.directory) := by
  unfold openOn
  rcases m.openHandle_cases with
    ⟨cause, m₁, opened, leads, live, -⟩ | ⟨c, m₁, opened, found, leads, live, opens⟩
  · exact Or.inl ⟨_, m₁, by rw [opened], leads, live⟩
  · have loading := m₁.reads_load { content := c }
    simp only [opened]
    split
    · rename_i cause m₂ loaded
      rw [loaded] at loading
      refine Or.inl ⟨_, _, rfl, (leads.trans loading.leadsTo).release, ?_⟩
      rw [Medium.release_live, loading.live, live]
      rfl
    · rename_i content m₂ loaded
      rw [loaded] at loading
      split
      · refine Or.inl ⟨_, _, rfl, (leads.trans loading.leadsTo).release, ?_⟩
        rw [Medium.release_live, loading.live, live]
        rfl
      · rename_i directory read
        have whole : content = c := Medium.load_eq_ok loaded
        refine Or.inr ⟨_, _, rfl, leads.trans loading.leadsTo, loading.live.trans live,
          loading.opens.trans opens, found, ?_⟩
        rw [← read, whole]

/-- An archive that has been opened has the bytes of its medium, and the directory that they
give. -/
theorem openOn_eq_ok {m m' : Medium} {a : Archive} (opened : openOn m = (.ok a, m')) :
    m.content = .ok a.handle.content ∧ Zip.Directory.read a.handle.content = .ok a.directory ∧
      m'.reach = m.reach := by
  rcases openOn_cases m with
    ⟨e, m₁, refused, -⟩ | ⟨a', m₁, succeeded, leads, -, -, content, read⟩
  · rw [opened] at refused
    cases refused
  · rw [opened] at succeeded
    cases succeeded
    exact ⟨content, read, leads.reach⟩

/-- An archive that has just been opened stands at its beginning. -/
theorem handle_of_openOn {m m' : Medium} {a : Archive} (opened : openOn m = (.ok a, m')) :
    a.handle = { content := a.handle.content } := by
  unfold openOn at opened
  rcases m.openHandle_cases with ⟨cause, m₁, eq, -⟩ | ⟨c, m₁, eq, -⟩
  · rw [eq] at opened
    cases opened
  · simp only [eq] at opened
    split at opened
    · cases opened
    · split at opened
      · cases opened
      · cases opened
        rfl

theorem openOn_of_faultless {m : Medium} {c : Content} (faultless : m.Faultless c) :
    ∃ m', m'.Faultless c ∧ m'.reach = m.reach ∧ m'.opens = m.opens + 1 ∧
      openOn m = match Zip.Directory.read c with
        | .error cause => (.error (.archive cause), m'.release)
        | .ok directory => (.ok { directory, handle := { content := c } }, m') := by
  obtain ⟨m₁, opened, faultless₁, -, opens, reach⟩ := Medium.openHandle_of_faultless faultless
  obtain ⟨d, sound, loaded⟩ := Medium.load_of_sound faultless₁.sound { content := c }
  refine ⟨_, faultless₁.withDelivery sound, reach, opens, ?_⟩
  unfold openOn
  cases read : Zip.Directory.read c with
  | error cause => simp only [opened, loaded, read]
  | ok directory => simp only [opened, loaded, read]

end Archive

/-! ### Handles that lookups leave open -/

/-- A lookup leaves one handle open if it gives an archive, and none otherwise. -/
theorem locate_cases (m : Medium) (p : Pattern) :
    (∃ e m', locate m p = (.error e, m') ∧ m.LeadsTo m' ∧ m'.live = m.live) ∨
    (∃ m', locate m p = (.ok none, m') ∧ m.LeadsTo m' ∧ m'.live = m.live) ∨
    (∃ a found m', locate m p = (.ok (some (a, found)), m') ∧ m.LeadsTo m' ∧
      m'.live = m.live + 1) := by
  unfold locate
  rcases Archive.openOn_cases m with
    ⟨e, m₁, opened, leads, live⟩ | ⟨a, m₁, opened, leads, live, -⟩
  · exact Or.inl ⟨e, m₁, by rw [opened], leads, live⟩
  · have finding := a.reads_find m₁ 0 p
    simp only [opened]
    split
    · rename_i e m₂ found
      rw [found] at finding
      refine Or.inl ⟨_, _, rfl, (leads.trans finding.leadsTo).release, ?_⟩
      rw [Medium.release_live, finding.live, live]
      rfl
    · rename_i m₂ found
      rw [found] at finding
      refine Or.inr (Or.inl ⟨_, rfl, (leads.trans finding.leadsTo).release, ?_⟩)
      rw [Medium.release_live, finding.live, live]
      rfl
    · rename_i located m₂ found
      rw [found] at finding
      exact Or.inr (Or.inr ⟨_, _, _, rfl, leads.trans finding.leadsTo, finding.live.trans live⟩)

/-- Asking whether there is an entry leaves no handle open. -/
theorem leads_contains (m : Medium) (p : Pattern) :
    m.LeadsTo (contains m p).2 ∧ (contains m p).2.live = m.live := by
  unfold contains
  rcases locate_cases m p with
    ⟨e, m₁, located, leads, live⟩ | ⟨m₁, located, leads, live⟩ |
    ⟨a, found, m₁, located, leads, live⟩
  · rw [located]
    exact ⟨leads, live⟩
  · rw [located]
    exact ⟨leads, live⟩
  · rw [located]
    refine ⟨leads.release, ?_⟩
    simp only [Medium.release_live, live]
    rfl

/-- Finding out how a package is stored leaves no handle open. -/
theorem leads_classify (layout : Layout) (package : String) (m : Medium) :
    m.LeadsTo (classify layout package m).2 ∧ (classify layout package m).2.live = m.live := by
  unfold classify
  have first := leads_contains m (.under (layout.recordsOf package))
  split
  · rename_i eq
    rwa [eq] at first
  · rename_i eq
    rwa [eq] at first
  · rename_i m₁ eq
    rw [eq] at first
    have second := leads_contains m₁ (.exactly (layout.streamPath package))
    split <;> rename_i eq' <;> rw [eq'] at second <;>
      exact ⟨first.1.trans second.1, second.2.trans first.2⟩

/-! ### Lookups as functions of the archive's bytes -/

/-- The archive with the bytes `c`, and the entry in it at which a lookup ends. -/
def locateIn (c : Content) (reach : Option Nat) (p : Pattern) :
    Except RestoreError (Option (Archive × Located)) :=
  match Zip.Directory.read c with
  | .error cause => .error (.archive cause)
  | .ok directory =>
      match firstMatch c reach p 0 directory.entries.toList with
      | .error e => .error e
      | .ok none => .ok none
      | .ok (some found) => .ok (some ({ directory, handle := { content := c } }, found))

/-- How a package is stored in the archive with the bytes `c`. -/
def classifyIn (c : Content) (reach : Option Nat) (layout : Layout) (package : String) :
    Except RestoreError RestoreMode :=
  match locateIn c reach (.under (layout.recordsOf package)) with
  | .error e => .error e
  | .ok (some _) => .ok .keyValue
  | .ok none =>
      match locateIn c reach (.exactly (layout.streamPath package)) with
      | .error e => .error e
      | .ok (some _) => .ok .fullStream
      | .ok none => .ok .none

/-- A lookup finds nothing exactly if the directory can be read and has nothing that fits. -/
theorem locateIn_eq_none_iff {c : Content} {reach : Option Nat} {p : Pattern} :
    locateIn c reach p = .ok none ↔ ∃ directory, Zip.Directory.read c = .ok directory ∧
      ∀ e ∈ directory.entries.toList,
        (∃ start, e.dataStart c reach = .ok start) ∧ p.selects e = false := by
  unfold locateIn
  cases Zip.Directory.read c with
  | error cause => simp
  | ok directory =>
      simp only [Except.ok.injEq, exists_eq_left', ← firstMatch_eq_none_iff 0]
      cases firstMatch c reach p 0 directory.entries.toList with
      | error e => simp
      | ok answer => cases answer <;> simp

/-- A lookup finds the first entry that fits. -/
theorem locateIn_eq_some {c : Content} {reach : Option Nat} {p : Pattern} {a : Archive}
    {found : Located} (located : locateIn c reach p = .ok (some (a, found))) :
    a.handle = { content := c } ∧ Zip.Directory.read c = .ok a.directory ∧
      ∃ e start, a.directory.entries.toList.find? p.selects = some e ∧
        a.directory.entries[found.index]? = some e ∧ found.name = e.name ∧
        e.dataStart c reach = .ok start := by
  unfold locateIn at located
  split at located
  · cases located
  · rename_i directory read
    split at located
    · cases located
    · cases located
    · rename_i found first
      cases located
      obtain ⟨passed, e, later, start, entries, unfit, selected, begins, rfl⟩ :=
        firstMatch_eq_some first
      refine ⟨rfl, read, e, start, ?_, ?_, rfl, begins⟩
      · rw [entries, List.find?_append, List.find?_eq_none.2 (by simpa using unfit),
          Option.none_or, List.find?_cons_of_pos selected]
      · rw [← Array.getElem?_toList, entries]
        simp

/-- A lookup finds something if there is an entry that fits and all can be visited. -/
theorem locateIn_of_selected {c : Content} {reach : Option Nat} {p : Pattern}
    {directory : Zip.Directory} (read : Zip.Directory.read c = .ok directory)
    (visitable : ∀ e ∈ directory.entries.toList, ∃ start, e.dataStart c reach = .ok start)
    {e : Zip.Entry} (listed : e ∈ directory.entries.toList) (selected : p.selects e = true) :
    ∃ a found, locateIn c reach p = .ok (some (a, found)) := by
  obtain ⟨answer, first⟩ := firstMatch_of_visitable (p := p) 0 visitable
  cases answer with
  | none =>
      have passed := ((firstMatch_eq_none_iff 0).1 first e listed).2
      rw [selected] at passed
      cases passed
  | some found =>
      refine ⟨{ directory, handle := { content := c } }, found, ?_⟩
      simp only [locateIn, read, first]

/-- A package has records, or a full stream and no records, or neither. -/
theorem classifyIn_cases {c : Content} {reach : Option Nat} {layout : Layout} {package : String}
    {mode : RestoreMode} (classified : classifyIn c reach layout package = .ok mode) :
    (mode = .keyValue ∧
      ∃ a found, locateIn c reach (.under (layout.recordsOf package)) = .ok (some (a, found))) ∨
    (locateIn c reach (.under (layout.recordsOf package)) = .ok none ∧
      ((mode = .fullStream ∧ ∃ a found,
          locateIn c reach (.exactly (layout.streamPath package)) = .ok (some (a, found))) ∨
        (mode = .none ∧
          locateIn c reach (.exactly (layout.streamPath package)) = .ok none))) := by
  unfold classifyIn at classified
  split at classified
  · cases classified
  · rename_i found records
    cases classified
    exact Or.inl ⟨rfl, _, _, records⟩
  · rename_i no_records
    refine Or.inr ⟨no_records, ?_⟩
    split at classified
    · cases classified
    · rename_i found stream
      cases classified
      exact Or.inl ⟨rfl, _, _, stream⟩
    · rename_i no_stream
      cases classified
      exact Or.inr ⟨rfl, no_stream⟩

theorem locate_of_faultless {m : Medium} {c : Content} (faultless : m.Faultless c)
    (p : Pattern) :
    ∃ m', m'.Faultless c ∧ m'.reach = m.reach ∧ m'.opens = m.opens + 1 ∧
      locate m p = (locateIn c m.reach p, m') := by
  obtain ⟨m₁, faultless₁, reach, opens, opened⟩ := Archive.openOn_of_faultless faultless
  unfold locate locateIn
  rw [opened]
  cases Zip.Directory.read c with
  | error cause => exact ⟨_, faultless₁.release, reach, opens, rfl⟩
  | ok directory =>
      obtain ⟨d, sound, found⟩ := Archive.find_of_sound
        { directory, handle := { content := c } } faultless₁.sound 0 p
      have faultless₂ := faultless₁.withDelivery sound
      have answer : firstMatch c m₁.reach p 0 directory.entries.toList =
          firstMatch c m.reach p 0 directory.entries.toList := by rw [reach]
      simp only [List.drop_zero, answer] at found
      simp only [found]
      cases firstMatch c m.reach p 0 directory.entries.toList with
      | error e => exact ⟨_, faultless₂.release, reach, opens, rfl⟩
      | ok answer =>
          cases answer with
          | none => exact ⟨_, faultless₂.release, reach, opens, rfl⟩
          | some located => exact ⟨_, faultless₂, reach, opens, rfl⟩

/-- A lookup that succeeds, on whatever medium, has found what the bytes of the archive say. -/
theorem locate_eq_ok {m m' : Medium} {p : Pattern} {a : Archive} {found : Located}
    (located : locate m p = (.ok (some (a, found)), m')) :
    ∃ c, m.content = .ok c ∧ a.handle = { content := c } ∧
      locateIn c m.reach p = .ok (some (a, found)) := by
  unfold locate at located
  rcases Archive.openOn_cases m with
    ⟨e, m₁, opened, -⟩ | ⟨a₁, m₁, opened, leads, -, -, content, read⟩
  · rw [opened] at located
    cases located
  · have fresh := Archive.handle_of_openOn opened
    simp only [opened] at located
    split at located
    · cases located
    · cases located
    · rename_i found₁ m₂ finding
      cases located
      have first := Archive.scan_eq_ok finding
      rw [List.drop_zero, Nat.sub_zero, List.take_of_length_le (by simp [Archive.size]),
        leads.reach] at first
      refine ⟨a.handle.content, content, fresh, ?_⟩
      simp only [locateIn, read, first]
      rw [← fresh]

theorem contains_of_faultless {m : Medium} {c : Content} (faultless : m.Faultless c)
    (p : Pattern) :
    ∃ m', m'.Faultless c ∧ m'.reach = m.reach ∧
      contains m p = ((locateIn c m.reach p).map Option.isSome, m') := by
  obtain ⟨m₁, faultless₁, reach, -, located⟩ := locate_of_faultless faultless p
  unfold contains
  rw [located]
  cases locateIn c m.reach p with
  | error e => exact ⟨m₁, faultless₁, reach, rfl⟩
  | ok answer =>
      cases answer with
      | none => exact ⟨m₁, faultless₁, reach, rfl⟩
      | some found => exact ⟨m₁.release, faultless₁.release, reach, rfl⟩

/-- On a medium that gives no trouble, how a package is stored is seen from the bytes of
the archive alone. -/
theorem classify_of_faultless {m : Medium} {c : Content} (faultless : m.Faultless c)
    (layout : Layout) (package : String) :
    ∃ m', m'.Faultless c ∧ m'.reach = m.reach ∧
      classify layout package m = (classifyIn c m.reach layout package, m') := by
  obtain ⟨m₁, faultless₁, reach₁, first⟩ :=
    contains_of_faultless faultless (.under (layout.recordsOf package))
  obtain ⟨m₂, faultless₂, reach₂, second⟩ :=
    contains_of_faultless faultless₁ (.exactly (layout.streamPath package))
  rw [reach₁] at second reach₂
  unfold classify classifyIn
  rw [first]
  cases locateIn c m.reach (.under (layout.recordsOf package)) with
  | error e => exact ⟨m₁, faultless₁, reach₁, rfl⟩
  | ok answer =>
      cases answer with
      | some found => exact ⟨m₁, faultless₁, reach₁, rfl⟩
      | none =>
          refine ⟨m₂, faultless₂, reach₂, ?_⟩
          simp only [Except.map, Option.isSome_none, second]
          cases locateIn c m.reach (.exactly (layout.streamPath package)) with
          | error e => rfl
          | ok answer =>
              cases answer with
              | none => rfl
              | some found => rfl

/-! ### Directories of small archives -/

namespace Zip

theorem applyFields_nil (d : Draft) : applyFields d [] = .ok d := by
  rw [applyFields]

/-- Places where no end record begins are stepped over. -/
theorem Directory.search_of_unsigned (c : Content) (failure : ArchiveError) (bound count : Nat)
    (unsigned : ∀ k < count, hasSignature c endSignature (bound + k) = false) :
    Directory.search c failure (bound + count) = Directory.search c failure bound := by
  induction count with
  | zero => rfl
  | succ count ih =>
      have last := unsigned count (Nat.lt_succ_self count)
      rw [Nat.add_succ, Directory.search, last]
      exact ih fun k within => unsigned k (Nat.lt_succ_of_lt within)

/-- The last place where an end record begins leads to the directory. -/
theorem Directory.read_of_end {c : Content} {position count : Nat} {directory : Directory}
    (size : c.size = position + 1 + count)
    (unsigned : ∀ k < count, hasSignature c endSignature (position + 1 + k) = false)
    (signed : hasSignature c endSignature position = true)
    (described : ofEndRecord c position = some (.ok directory)) :
    Directory.read c = .ok directory := by
  rw [Directory.read, size, search_of_unsigned _ _ _ _ unsigned, search, if_pos signed, described]

/-- The entries stand in a directory one behind the other, from a place on. -/
inductive Chain (c : Content) (archiveOffset : Nat) : Nat → List Entry → Prop where
  | nil (start : Nat) : Chain c archiveOffset start []
  | cons {start next : Nat} {e : Entry} {rest : List Entry}
      (read : Entry.read c archiveOffset start = .ok (e, next))
      (later : Chain c archiveOffset next rest) : Chain c archiveOffset start (e :: rest)

/-- Entries that stand one behind the other are read in their order, if each has a name of its
own. -/
theorem Chain.readEntries {c : Content} {archiveOffset start : Nat} {entries : List Entry}
    (chain : Chain c archiveOffset start entries)
    (distinct : entries.Pairwise fun e e' => e.name ≠ e'.name) {l : Listing}
    (fresh : ∀ e ∈ entries, l.places[e.name]? = none) :
    Zip.readEntries c archiveOffset entries.length start l =
      .ok (l.entries ++ entries.toArray) := by
  induction chain generalizing l with
  | nil start => simp [Zip.readEntries]
  | @cons start next e rest read later ih =>
      rw [List.pairwise_cons] at distinct
      rw [List.forall_mem_cons] at fresh
      have added : l.insert e =
          { entries := l.entries.push e, places := l.places.insert e.name l.entries.size } := by
        simp only [Listing.insert, fresh.1]
      have unplaced : ∀ e' ∈ rest, (l.insert e).places[e'.name]? = none := by
        intro e' member
        have other : (e.name == e'.name) = false := beq_false_of_ne (distinct.1 e' member)
        rw [added, Std.HashMap.getElem?_insert, other]
        exact fresh.2 e' member
      have behind := ih distinct.2 unplaced
      rw [List.length_cons, Zip.readEntries, read]
      change Zip.readEntries c archiveOffset rest.length next (l.insert e) = _
      rw [behind, added]
      simp

/-- An end record that leads to such entries leads to their directory. -/
theorem Directory.ofEndRecord_of_chain {c : Content} {position : Nat} {place : DirectoryPlace}
    {entries : List Entry} (placed : placeAt c position = some (.ok place))
    (chain : Chain c place.archiveOffset place.start entries)
    (count : place.entryCount = entries.length)
    (distinct : entries.Pairwise fun e e' => e.name ≠ e'.name) :
    ofEndRecord c position = some (.ok { entries := entries.toArray }) := by
  have listed := chain.readEntries distinct (l := {}) (by simp)
  simp only [ofEndRecord, placed, count, listed]
  simp

end Zip

/-! ### An archive of two entries

The statements above have hypotheses about the directory of an archive and the headers in
front of its entries.  This archive satisfies them: it stores the full stream `data` of the
package `p`, and under the key `k` the record `v` of the package `q`. -/

namespace Sample

set_option maxRecDepth 4000

/-- The bytes of the archive. -/
def content : Content := #[
    80, 75, 3, 4, 20, 0, 0, 0, 0, 0, 0, 0, 0, 0, 99, 243, 243, 173, 4, 0, 0, 0, 4, 0,
    0, 0, 6, 0, 0, 0, 102, 117, 108, 108, 47, 112, 100, 97, 116, 97, 80, 75, 3, 4, 20, 0, 0, 0,
    0, 0, 0, 0, 0, 0, 132, 59, 100, 107, 1, 0, 0, 0, 1, 0, 0, 0, 16, 0, 0, 0, 105, 110,
    99, 114, 101, 109, 101, 110, 116, 97, 108, 47, 113, 47, 97, 119, 118, 80, 75, 1, 2, 20, 0, 20,
    0, 0, 0, 0, 0, 0, 0, 0, 0, 99, 243, 243, 173, 4, 0, 0, 0, 4, 0, 0, 0, 6,
    0, 0, 0, 0, 0, 0, 0, 0, 0, 0, 0, 0, 0, 0, 0, 0, 0, 102, 117, 108, 108, 47,
    112, 80, 75, 1, 2, 20, 0, 20, 0, 0, 0, 0, 0, 0, 0, 0, 0, 132, 59, 100, 107, 1,
    0, 0, 0, 1, 0, 0, 0, 16, 0, 0, 0, 0, 0, 0, 0, 0, 0, 0, 0, 0, 0, 40,
    0, 0, 0, 105, 110, 99, 114, 101, 109, 101, 110, 116, 97, 108, 47, 113, 47, 97, 119, 80, 75, 5,
    6, 0, 0, 0, 0, 2, 0, 2, 0, 114, 0, 0, 0, 87, 0, 0, 0, 0, 0]

/-- The entry with the full stream. -/
def stream : Zip.Entry where
  name := "full/p"
  isEncrypted := false
  method := .stored
  checksum := 0xADF3F363
  compressedSize := 4
  uncompressedSize := 4
  headerStart := 0
  hasCipherNote := false

/-- The entry with the record. -/
def record : Zip.Entry where
  name := "incremental/q/aw"
  isEncrypted := false
  method := .stored
  checksum := 0x6B643B84
  compressedSize := 1
  uncompressedSize := 1
  headerStart := 40
  hasCipherNote := false

private theorem read_stream : Zip.Entry.read content 0 87 = .ok (stream, 139) := by
  have parts : Zip.Entry.ofParts (content.slice 87 133) (content.slice 133 139) [] [] 0 =
      .ok stream := by
    simp only [Zip.Entry.ofParts, Zip.applyFields_nil]
    rfl
  change (Zip.Entry.ofParts (content.slice 87 133) (content.slice 133 139) [] [] 0 >>=
    fun e => pure (e, 139)) = _
  rw [parts]
  rfl

private theorem read_record : Zip.Entry.read content 0 139 = .ok (record, 201) := by
  have parts : Zip.Entry.ofParts (content.slice 139 185) (content.slice 185 201) [] [] 0 =
      .ok record := by
    simp only [Zip.Entry.ofParts, Zip.applyFields_nil]
    rfl
  change (Zip.Entry.ofParts (content.slice 139 185) (content.slice 185 201) [] [] 0 >>=
    fun e => pure (e, 201)) = _
  rw [parts]
  rfl

private theorem ofEndRecord_end :
    Zip.Directory.ofEndRecord content 201 = some (.ok { entries := #[stream, record] }) := by
  have place : Zip.placeAt content 201 =
      some (.ok { start := 87, archiveOffset := 0, entryCount := 2 }) := rfl
  exact Zip.Directory.ofEndRecord_of_chain place (.cons read_stream (.cons read_record (.nil _)))
    rfl (by decide)

/-- The directory lists the two entries. -/
theorem read_content :
    Zip.Directory.read content = .ok { entries := #[stream, record] } := by
  have size : content.size = 201 + 1 + 21 := by decide
  have unsigned : ∀ k < 21, Zip.hasSignature content Zip.endSignature (201 + 1 + k) = false := by
    decide
  exact Zip.Directory.read_of_end size unsigned (by decide) ofEndRecord_end

/-- Both entries can be visited. -/
theorem dataStart_entries :
    stream.dataStart content none = .ok 36 ∧ record.dataStart content none = .ok 86 :=
  ⟨rfl, rfl⟩

/-- The layout by which the entries are named. -/
def layout : Layout where
  incrementalDir := "incremental/"
  fullDir := "full/"

/-- The archive as it is when it has been opened. -/
def archive : Archive where
  directory := { entries := #[stream, record] }
  handle := { content }

theorem openOn_content : ∃ m, Archive.openOn (Medium.ofContent content) = (.ok archive, m) := by
  obtain ⟨m, -, -, -, opened⟩ := Archive.openOn_of_faultless (Medium.faultless_ofContent content)
  rw [read_content] at opened
  exact ⟨m, opened⟩

/-- A lookup in the archive ends at the first of the two entries that fits. -/
theorem locateIn_content (p : Pattern) :
    locateIn content none p =
      if p.selects stream then .ok (some (archive, { index := 0, name := stream.name }))
      else if p.selects record then .ok (some (archive, { index := 1, name := record.name }))
      else .ok none := by
  simp only [locateIn, read_content, firstMatch, dataStart_entries]
  cases p.selects stream <;> cases p.selects record <;> rfl

/-- One package of the archive has a full stream and the other one records. -/
theorem classifyIn_content :
    classifyIn content none layout "p" = .ok .fullStream ∧
      classifyIn content none layout "q" = .ok .keyValue := by
  have no_records : (Pattern.under (layout.recordsOf "p")).selects stream = false ∧
      (Pattern.under (layout.recordsOf "p")).selects record = false := by decide
  have found : (Pattern.exactly (layout.streamPath "p")).selects stream = true := by decide
  have other : (Pattern.under (layout.recordsOf "q")).selects stream = false ∧
      (Pattern.under (layout.recordsOf "q")).selects record = true := by decide
  constructor
  · simp only [classifyIn, locateIn_content, no_records, found, if_true, Bool.false_eq_true,
      if_false]
  · simp only [classifyIn, locateIn_content, other, if_true, Bool.false_eq_true, if_false]

end Sample

end BackupRestore
