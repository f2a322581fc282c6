/-
Module: BackupRestore.Proofs.Enumeration
Purpose: Searches that go on where the one before ended.
Main exports: Archive.behind, Archive.barrier?, Archive.matchAt, Archive.Search,
  Archive.search_find, Archive.findAll, Archive.findAll_cases, Archive.barrier_of_sound,
  transferFrom_resumes, Archive.searches_list_matches
-/
import BackupRestore.Proofs.Lookup
import BackupRestore.Transfer

namespace BackupRestore

/-!
A search visits the entries of the directory from some place on, and each visit may change what
the medium does next.  So whether an entry can be visited is a question about the moment at which
the search comes to it: `behind` is the medium at that moment, and `barrier?` what bars the way.  A
search that goes on behind an entry found before comes to the next entries at the same moments as
one search through the whole directory would.  Nothing is visited twice, and nothing is left out.
-/

namespace Archive

variable {a : Archive} {p : Pattern} {m : Medium}

/-! ### The moment at which an entry is visited -/

/-- The medium when the entries from `start` up to `stop` have been visited. -/
def behind (a : Archive) (m : Medium) (start stop : Nat) : Medium :=
  ((a.directory.entries.toList.drop start).take (stop - start)).foldl
    (fun m e => (a.visit m e).2) m

/-- Why a search from `start` on cannot visit the entry at `index` when it comes to it, if it
cannot. -/
def barrier? (a : Archive) (m : Medium) (start index : Nat) : Option ArchiveError :=
  match a.directory.entries[index]? with
  | none => none
  | some e =>
      match (a.visit (a.behind m start index) e).1 with
      | .error cause => some cause
      | .ok _ => none

/-- Why the header in front of the data of the entry at `index` is none, if it is none. -/
def headerFault? (a : Archive) (reach : Option Nat) (index : Nat) : Option ArchiveError :=
  match a.directory.entries[index]? with
  | none => none
  | some e =>
      match e.dataStart a.handle.content reach with
      | .error cause => some cause
      | .ok _ => none

/-- The entry at `index`, if it is one at which a search ends. -/
def matchAt (a : Archive) (p : Pattern) (index : Nat) : Option Located :=
  match a.directory.entries[index]? with
  | none => none
  | some e => if p.selects e then some { index, name := e.name } else none

/-- The entries from `start` up to `stop` at which searches end, in the order of the directory. -/
def matchesIn (a : Archive) (p : Pattern) (start stop : Nat) : List Located :=
  (List.range' start (stop - start)).filterMap (a.matchAt p)

theorem behind_of_le {start stop : Nat} (nothing : stop ≤ start) : a.behind m start stop = m := by
  rw [behind, Nat.sub_eq_zero_of_le nothing, List.take_zero, List.foldl_nil]

/-- Entries may be visited in two goes. -/
theorem behind_trans {start middle stop : Nat} (first : start ≤ middle) (second : middle ≤ stop) :
    a.behind (a.behind m start middle) middle stop = a.behind m start stop := by
  have parts : stop - start = (middle - start) + (stop - middle) := by omega
  have place : start + (middle - start) = middle := by omega
  rw [behind, behind, behind, parts, List.take_add, List.foldl_append, List.drop_drop, place]

theorem barrier_trans {start middle index : Nat} (first : start ≤ middle)
    (second : middle ≤ index) :
    a.barrier? (a.behind m start middle) middle index = a.barrier? m start index := by
  unfold barrier?
  rw [behind_trans first second]

theorem behind_succ {start : Nat} {e : Zip.Entry} (here : a.directory.entries[start]? = some e) :
    a.behind m start (start + 1) = (a.visit m e).2 := by
  have one : start + 1 - start = 1 := by omega
  rw [behind, drop_entries here, one, List.take_succ_cons, List.take_zero, List.foldl_cons,
    List.foldl_nil]

/-- The directory ends before the place. -/
theorem barrier_of_none {start index : Nat} (none_left : a.directory.entries[index]? = none) :
    a.barrier? m start index = none := by
  rw [barrier?, none_left]

theorem matchAt_of_none {index : Nat} (none_left : a.directory.entries[index]? = none) :
    a.matchAt p index = none := by
  rw [matchAt, none_left]

theorem entries_of_size_le {index : Nat} (past : a.size ≤ index) :
    a.directory.entries[index]? = none :=
  Array.getElem?_eq_none past

/-- A search ends at an entry of the directory, and tells its place. -/
theorem matchAt_eq_some {index : Nat} {found : Located} (fits : a.matchAt p index = some found) :
    found.index = index ∧ index < a.size ∧ ∃ e, a.directory.entries[index]? = some e ∧
      p.selects e = true ∧ found.name = e.name := by
  unfold matchAt at fits
  cases here : a.directory.entries[index]? with
  | none =>
      rw [here] at fits
      cases fits
  | some e =>
      rw [here] at fits
      obtain ⟨within, -⟩ := Array.getElem?_eq_some_iff.1 here
      cases selected : p.selects e with
      | false =>
          simp only [selected, Bool.false_eq_true, if_false] at fits
          cases fits
      | true =>
          simp only [selected, if_true] at fits
          cases fits
          exact ⟨rfl, within, e, rfl, selected, rfl⟩

/-! ### One search -/

/-- A search from `start` on gets past all entries up to `stop`. -/
def Passes (a : Archive) (p : Pattern) (m : Medium) (start stop : Nat) : Prop :=
  ∀ index, start ≤ index → index < stop →
    a.barrier? m start index = none ∧ a.matchAt p index = none

/-- How a search from `start` on ends, and the medium then. -/
inductive Search (a : Archive) (p : Pattern) (m : Medium) (start : Nat) :
    Except RestoreError (Option Located) × Medium → Prop where
  /-- An entry cannot be visited. -/
  | barred {index : Nat} {cause : ArchiveError} (reached : start ≤ index)
      (passes : a.Passes p m start index) (bar : a.barrier? m start index = some cause) :
      Search a p m start (.error (.archive cause), a.behind m start (index + 1))
  | found {located : Located} (reached : start ≤ located.index)
      (passes : a.Passes p m start located.index)
      (visited : a.barrier? m start located.index = none)
      (fits : a.matchAt p located.index = some located) :
      Search a p m start (.ok (some located), a.behind m start (located.index + 1))
  /-- The directory comes to its end. -/
  | exhausted (passes : a.Passes p m start a.size) :
      Search a p m start (.ok none, a.behind m start a.size)

/-- The first step of a search. -/
theorem find_step (a : Archive) (p : Pattern) (m : Medium) (start : Nat) :
    a.find m start p =
      match a.directory.entries[start]? with
      | none => (.ok none, m)
      | some e =>
          match a.visit m e with
          | (.error cause, m) => (.error (.archive cause), m)
          | (.ok _, m) =>
              if p.selects e then (.ok (some { index := start, name := e.name }), m)
              else a.find m (start + 1) p := by
  cases here : a.directory.entries[start]? with
  | none =>
      have past : a.size - start = 0 :=
        Nat.sub_eq_zero_of_le (Array.getElem?_eq_none_iff.1 here)
      rw [find, past]
      rfl
  | some e =>
      obtain ⟨within, -⟩ := Array.getElem?_eq_some_iff.1 here
      have count : a.size - start = a.size - (start + 1) + 1 := by
        have : start < a.size := within
        omega
      rw [find, count, scan, here]
      rfl

/-- A search past one entry that does not fit is a search behind it. -/
theorem Search.step {start : Nat}
    {outcome : Except RestoreError (Option Located) × Medium} (within : start < a.size)
    (visited : a.barrier? m start start = none) (unfit : a.matchAt p start = none)
    (later : a.Search p (a.behind m start (start + 1)) (start + 1) outcome) :
    a.Search p m start outcome := by
  have farther : start ≤ start + 1 := Nat.le_succ start
  have passes {stop : Nat} (rest : a.Passes p (a.behind m start (start + 1)) (start + 1) stop) :
      a.Passes p m start stop := by
    intro index low high
    rcases Nat.eq_or_lt_of_le low with rfl | beyond
    · exact ⟨visited, unfit⟩
    · have known := rest index beyond high
      rwa [barrier_trans farther beyond] at known
  cases later with
  | barred reached rest bar =>
      rw [barrier_trans farther reached] at bar
      rw [behind_trans farther (Nat.le_succ_of_le reached)]
      exact .barred (Nat.le_of_succ_le reached) (passes rest) bar
  | found reached rest visited' fits =>
      rw [barrier_trans farther reached] at visited'
      rw [behind_trans farther (Nat.le_succ_of_le reached)]
      exact .found (Nat.le_of_succ_le reached) (passes rest) visited' fits
  | exhausted rest =>
      rw [behind_trans farther within]
      exact .exhausted (passes rest)

/-- Every search ends in one of the three ways. -/
theorem search_find (a : Archive) (p : Pattern) (m : Medium) (start : Nat) :
    a.Search p m start (a.find m start p) := by
  induction left : a.size - start generalizing start m with
  | zero =>
      have past : a.size ≤ start := Nat.le_of_sub_eq_zero left
      have exhausted : a.Search p m start (.ok none, a.behind m start a.size) :=
        .exhausted fun index low high => absurd high (Nat.not_lt.2 (Nat.le_trans past low))
      rw [behind_of_le past] at exhausted
      rw [find_step, entries_of_size_le past]
      exact exhausted
  | succ count ih =>
      have nothing_before : a.Passes p m start start :=
        fun index low high => absurd high (Nat.not_lt.2 low)
      have within : start < a.size := by omega
      obtain ⟨e, here⟩ : ∃ e, a.directory.entries[start]? = some e :=
        ⟨_, Array.getElem?_eq_getElem within⟩
      have moment := behind_succ (m := m) here
      have bar : a.barrier? m start start =
          match (a.visit m e).1 with
          | .error cause => some cause
          | .ok _ => none := by
        rw [barrier?, here, behind_of_le (Nat.le_refl start)]
      have fits : a.matchAt p start =
          if p.selects e then some { index := start, name := e.name } else none := by
        rw [matchAt, here]
      have step := find_step a p m start
      rw [here] at step
      cases visited : a.visit m e with
      | mk answer m₁ =>
          rw [visited] at moment bar
          cases answer with
          | error cause =>
              have barred := Search.barred (Nat.le_refl start) nothing_before bar
              rw [moment] at barred
              simp only [visited] at step
              rwa [step]
          | ok handle =>
              cases selected : p.selects e with
              | true =>
                  rw [selected, if_pos rfl] at fits
                  have found := @Search.found a p m start { index := start, name := e.name }
                    (Nat.le_refl start) nothing_before bar fits
                  rw [moment] at found
                  simp only [visited, selected, if_true] at step
                  rwa [step]
              | false =>
                  rw [selected, if_neg Bool.false_ne_true] at fits
                  simp only [visited, selected, Bool.false_eq_true, if_false] at step
                  rw [step]
                  refine Search.step within bar fits ?_
                  rw [moment]
                  exact ih m₁ (start + 1) (by omega)

/-- A search that has found an entry came past all entries up to it, and it can be visited. -/
theorem barrier_of_found {start index : Nat} {found : Located}
    (passes : a.Passes p m start found.index)
    (visited : a.barrier? m start found.index = none)
    (low : start ≤ index) (high : index ≤ found.index) : a.barrier? m start index = none := by
  rcases Nat.eq_or_lt_of_le high with rfl | before
  · exact visited
  · exact (passes index low before).1

theorem barrier_of_exhausted {start index : Nat} (passes : a.Passes p m start a.size)
    (low : start ≤ index) : a.barrier? m start index = none := by
  rcases Nat.lt_or_ge index a.size with within | past
  · exact (passes index low within).1
  · exact barrier_of_none (entries_of_size_le past)

/-- A search fails exactly if some entry cannot be visited that stands no farther than the first one
that fits. -/
theorem find_fails_iff (a : Archive) (p : Pattern) (m : Medium) (start : Nat) :
    (∃ e, (a.find m start p).1 = .error e) ↔
      ∃ index, start ≤ index ∧ (∀ i, start ≤ i → i < index → a.matchAt p i = none) ∧
        (a.barrier? m start index).isSome = true := by
  have search := a.search_find p m start
  generalize a.find m start p = outcome at search
  constructor
  · rintro ⟨e, failed⟩
    cases search with
    | barred reached passes bar =>
        exact ⟨_, reached, fun i low high => (passes i low high).2, Option.isSome_of_eq_some bar⟩
    | found reached passes visited fits => cases failed
    | exhausted passes => cases failed
  · rintro ⟨index, low, unfit, bar⟩
    cases search with
    | barred reached passes bar' => exact ⟨_, rfl⟩
    | found reached passes visited fits =>
        rename_i located
        rcases Nat.lt_or_ge located.index index with before | up_to
        · rw [unfit located.index reached before] at fits
          cases fits
        · rw [barrier_of_found passes visited low up_to] at bar
          cases bar
    | exhausted passes =>
        rw [barrier_of_exhausted passes low] at bar
        cases bar

/-- What a search finds is the first entry from its start on that fits. -/
theorem find_eq_some {start : Nat} {found : Located}
    (ended : (a.find m start p).1 = .ok (some found)) :
    start ≤ found.index ∧ a.matchAt p found.index = some found ∧
      ∀ i, start ≤ i → i < found.index → a.matchAt p i = none := by
  have search := a.search_find p m start
  generalize a.find m start p = outcome at search ended
  cases search with
  | barred reached passes bar => cases ended
  | found reached passes visited fits =>
      cases ended
      exact ⟨reached, fits, fun i low high => (passes i low high).2⟩
  | exhausted passes => cases ended

/-- A search finds nothing only if no entry from its start on fits. -/
theorem find_eq_none {start : Nat} (ended : (a.find m start p).1 = .ok none) (index : Nat)
    (low : start ≤ index) : a.matchAt p index = none := by
  have search := a.search_find p m start
  generalize a.find m start p = outcome at search ended
  cases search with
  | barred reached passes bar => cases ended
  | found reached passes visited fits => cases ended
  | exhausted passes =>
      rcases Nat.lt_or_ge index a.size with within | past
      · exact (passes index low within).2
      · exact matchAt_of_none (entries_of_size_le past)

/-! ### One search after the other -/

/-- Search from `start` on, and go on behind each entry that is found.  Gives the entries found, why
the last search failed, if it did, and the medium then. -/
def findAll (a : Archive) (p : Pattern) (m : Medium) (start : Nat) :
    List Located × Option RestoreError × Medium :=
  match _ended : a.find m start p with
  | (.error e, m) => ([], some e, m)
  | (.ok none, m) => ([], none, m)
  | (.ok (some found), m) =>
      let (more, failure, m) := findAll a p m (found.index + 1)
      (found :: more, failure, m)
termination_by a.size - start
decreasing_by
  obtain ⟨reached, fits, -⟩ := find_eq_some (congrArg Prod.fst _ended)
  have within := (matchAt_eq_some fits).2.1
  omega

theorem matchesIn_of_passes {start stop : Nat} (passes : a.Passes p m start stop) :
    a.matchesIn p start stop = [] := by
  rw [matchesIn, List.filterMap_eq_nil_iff]
  intro index member
  obtain ⟨low, high⟩ := List.mem_range'_1.1 member
  exact (passes index low (by omega)).2

theorem matchesIn_zero (a : Archive) (p : Pattern) (stop : Nat) :
    a.matchesIn p 0 stop = (List.range stop).filterMap (a.matchAt p) := by
  rw [matchesIn, List.range_eq_range', Nat.sub_zero]

/-- The first entry that fits, and those behind it. -/
theorem matchesIn_of_found {start stop : Nat} {found : Located} (reached : start ≤ found.index)
    (before : found.index < stop) (passes : a.Passes p m start found.index)
    (fits : a.matchAt p found.index = some found) :
    a.matchesIn p start stop = found :: a.matchesIn p (found.index + 1) stop := by
  have parts : stop - start = (found.index - start) + (stop - (found.index + 1) + 1) := by omega
  have place : start + (found.index - start) = found.index := by omega
  have first := matchesIn_of_passes passes
  rw [matchesIn] at first
  rw [matchesIn, parts, ← List.range'_append_1, List.filterMap_append, first, List.nil_append,
    place, List.range'_succ, List.filterMap_cons_some fits, matchesIn]

/-- The searches list all entries that fit up to the first entry that cannot be visited, or all. -/
theorem findAll_cases (a : Archive) (p : Pattern) (m : Medium) (start : Nat) :
    (∃ index cause, start ≤ index ∧
      (∀ i, start ≤ i → i < index → a.barrier? m start i = none) ∧
      a.barrier? m start index = some cause ∧
      a.findAll p m start = (a.matchesIn p start index, some (.archive cause),
        a.behind m start (index + 1))) ∨
    ((∀ i, start ≤ i → a.barrier? m start i = none) ∧
      a.findAll p m start = (a.matchesIn p start a.size, none, a.behind m start a.size)) := by
  fun_induction findAll a p m start with
  | case1 m start e m' ended =>
      have search := a.search_find p m start
      rw [ended] at search
      cases search with
      | barred reached passes bar =>
          refine .inl ⟨_, _, reached, fun i low high => (passes i low high).1, bar, ?_⟩
          rw [matchesIn_of_passes passes]
  | case2 m start m' ended =>
      have search := a.search_find p m start
      rw [ended] at search
      cases search with
      | exhausted passes =>
          refine .inr ⟨fun i low => barrier_of_exhausted passes low, ?_⟩
          rw [matchesIn_of_passes passes]
  | case3 m start found m' ended more failure m'' rest ih =>
      have search := a.search_find p m start
      rw [ended] at search
      cases search with
      | found reached passes visited fits =>
          have farther : start ≤ found.index + 1 := Nat.le_succ_of_le reached
          -- Up to the entry found the first search has come, and behind it the others come.
          rcases ih with ⟨index, cause, beyond, open_before, bar, listed⟩ |
            ⟨all_open, listed⟩
          · rw [listed] at rest
            cases rest
            rw [barrier_trans farther beyond] at bar
            refine .inl ⟨index, cause, Nat.le_trans farther beyond, fun i low high => ?_, bar, ?_⟩
            · rcases Nat.lt_or_ge found.index i with behind_found | up_to_found
              · rw [← barrier_trans farther behind_found]
                exact open_before i behind_found high
              · exact barrier_of_found passes visited low up_to_found
            · rw [behind_trans farther (Nat.le_succ_of_le beyond),
                matchesIn_of_found reached beyond passes fits]
          · rw [listed] at rest
            cases rest
            have within := (matchAt_eq_some fits).2.1
            refine .inr ⟨fun i low => ?_, ?_⟩
            · rcases Nat.lt_or_ge found.index i with behind_found | up_to_found
              · rw [← barrier_trans farther behind_found]
                exact all_open i behind_found
              · exact barrier_of_found passes visited low up_to_found
            · rw [behind_trans farther within, matchesIn_of_found reached within passes fits]

/-- The entries listed stand in the order of the directory, each once. -/
theorem sorted_matchesIn (a : Archive) (p : Pattern) (start stop : Nat) :
    ((a.matchesIn p start stop).map (·.index)).Pairwise (· < ·) := by
  rw [List.pairwise_map]
  refine List.Pairwise.filterMap _ ?_ List.pairwise_lt_range'
  intro i j before found fits later fits'
  rw [(matchAt_eq_some fits).1, (matchAt_eq_some fits').1]
  exact before

/-! ### A medium on which no read fails -/

theorem behind_of_sound (a : Archive) (start stop : Nat) (sound : m.delivery.Sound) :
    ∃ delivery : Delivery, delivery.Sound ∧ a.behind m start stop = { m with delivery } := by
  unfold behind
  induction (a.directory.entries.toList.drop start).take (stop - start) generalizing m with
  | nil => exact ⟨m.delivery, sound, rfl⟩
  | cons e rest ih =>
      obtain ⟨d, sound', visited⟩ := visit_of_sound sound a e
      obtain ⟨d', sound'', later⟩ := ih (m := { m with delivery := d }) sound'
      refine ⟨d', sound'', ?_⟩
      rw [List.foldl_cons, visited]
      exact later

/-- Where no read fails, an entry can be visited, whenever that is, exactly if there is a header in
front of its data. -/
theorem barrier_of_sound (a : Archive) (start index : Nat) (sound : m.delivery.Sound) :
    a.barrier? m start index = a.headerFault? m.reach index := by
  obtain ⟨d, sound', moment⟩ := a.behind_of_sound start index sound
  unfold barrier? headerFault?
  rw [moment]
  cases a.directory.entries[index]? with
  | none => rfl
  | some e =>
      obtain ⟨d', -, visited⟩ := visit_of_sound (m := { m with delivery := d }) sound' a e
      simp only [visited]
      cases e.dataStart a.handle.content m.reach with
      | error cause => rfl
      | ok place => rfl

end Archive

/-- The transfer of records goes from record to record by such searches. -/
theorem transferFrom_resumes [Zip.Codecs] {σ : Type} [RecordSink σ] (a : Archive)
    (p : Pattern) (index : Nat) (m : Medium) (sink : σ) (written : Nat) :
    transferFrom a p (a.size - index) index m sink written =
      match a.find m index p with
      | (.error e, m) => (.error e, m, sink)
      | (.ok none, m) => (.ok written, m, sink)
      | (.ok (some found), m) =>
          match transferRecord a m sink found with
          | (.error e, m, sink) => (.error e, m, sink)
          | (.ok _, m, sink) =>
              transferFrom a p (a.size - (found.index + 1)) (found.index + 1) m sink
                (written + 1) := by
  induction left : a.size - index generalizing index m with
  | zero =>
      have none_left := Archive.entries_of_size_le (Nat.le_of_sub_eq_zero left)
      rw [Archive.find_step, none_left]
      rfl
  | succ count ih =>
      have within : index < a.size := by omega
      have here : a.directory.entries[index]? = some a.directory.entries[index] :=
        Array.getElem?_eq_getElem within
      have behind : count = a.size - (index + 1) := by omega
      rw [Archive.find_step, transferFrom, here]
      simp only
      cases a.visit m a.directory.entries[index] with
      | mk answer m₁ =>
          cases answer with
          | error cause => rfl
          | ok handle =>
              cases selected : p.selects a.directory.entries[index] with
              | false =>
                  have unfit : ¬(!a.directory.entries[index].isDirectory &&
                      p.matches a.directory.entries[index].name) = true := by
                    rw [← Pattern.selects, selected]
                    exact Bool.false_ne_true
                  simp only [unfit, if_false, Bool.false_eq_true]
                  exact ih (index + 1) m₁ behind.symm
              | true =>
                  have fits : (!a.directory.entries[index].isDirectory &&
                      p.matches a.directory.entries[index].name) = true := selected
                  cases transferred : transferRecord a m₁ sink
                      { index, name := a.directory.entries[index].name } with
                  | mk done rest =>
                      cases done with
                      | error e => simp only [fits, if_true, transferred]
                      | ok _ => simp only [fits, if_true, transferred, behind]

namespace Archive

/-- Searches on any medium.  A search fails exactly if, at the moment at which it comes to it, some
entry cannot be visited that stands no farther than the first one that fits.  Otherwise it gives
the first entry from its start on that fits, or none if there is none; a start behind the directory
finds none and reads nothing.  Going on behind each entry found comes to an end: it lists the
entries that fit in the order of the directory, each once, up to the first entry that cannot be
visited, and all of them if every entry can be visited.  Where no read fails, an entry can be
visited exactly if there is a header in front of its data, and this does not depend on the searches.
The transfer of records goes on by these searches. -/
theorem searches_list_matches [Zip.Codecs] (a : Archive) (p : Pattern) :
    (∀ (m : Medium) (start : Nat),
      ((∃ e, (a.find m start p).1 = .error e) ↔
        ∃ index, start ≤ index ∧ (∀ i, start ≤ i → i < index → a.matchAt p i = none) ∧
          (a.barrier? m start index).isSome = true) ∧
      (∀ found, (a.find m start p).1 = .ok (some found) →
        start ≤ found.index ∧ a.matchAt p found.index = some found ∧
          ∀ i, start ≤ i → i < found.index → a.matchAt p i = none) ∧
      ((a.find m start p).1 = .ok none → ∀ i, start ≤ i → a.matchAt p i = none) ∧
      (a.size ≤ start → a.find m start p = (.ok none, m))) ∧
    (∀ m : Medium, (∀ i, a.barrier? m 0 i = none) →
      a.findAll p m 0 =
        ((List.range a.size).filterMap (a.matchAt p), none, a.behind m 0 a.size)) ∧
    (∀ (m : Medium) (index : Nat) (cause : ArchiveError),
      (∀ i, i < index → a.barrier? m 0 i = none) → a.barrier? m 0 index = some cause →
      a.findAll p m 0 =
        ((List.range index).filterMap (a.matchAt p), some (.archive cause),
          a.behind m 0 (index + 1))) ∧
    (∀ m : Medium, ((a.findAll p m 0).1.map (·.index)).Pairwise (· < ·)) ∧
    (∀ (m : Medium) (start index : Nat), m.delivery.Sound →
      a.barrier? m start index = a.headerFault? m.reach index) ∧
    ∀ {σ : Type} [RecordSink σ] (m : Medium) (index : Nat) (sink : σ) (written : Nat),
      transferFrom a p (a.size - index) index m sink written =
        match a.find m index p with
        | (.error e, m) => (.error e, m, sink)
        | (.ok none, m) => (.ok written, m, sink)
        | (.ok (some found), m) =>
            match transferRecord a m sink found with
            | (.error e, m, sink) => (.error e, m, sink)
            | (.ok _, m, sink) =>
                transferFrom a p (a.size - (found.index + 1)) (found.index + 1) m sink
                  (written + 1) := by
  refine ⟨fun m start => ⟨a.find_fails_iff p m start, fun found ended => find_eq_some ended,
      find_eq_none, ?_⟩, fun m all_open => ?_, fun m index cause open_before bar => ?_,
    fun m => ?_, fun m start index sound => a.barrier_of_sound start index sound,
    fun m index sink written => transferFrom_resumes a p index m sink written⟩
  · intro past
    rw [find_step, entries_of_size_le past]
  · rcases a.findAll_cases p m 0 with
      ⟨index, cause, -, -, bar, -⟩ | ⟨-, listed⟩
    · rw [all_open] at bar
      cases bar
    · rw [listed, matchesIn_zero]
  · rcases a.findAll_cases p m 0 with
      ⟨index', cause', -, open_before', bar', listed⟩ | ⟨all_open, -⟩
    · have same : index' = index := by
        rcases Nat.lt_trichotomy index' index with before | same | behind
        · rw [open_before index' before] at bar'
          cases bar'
        · exact same
        · rw [open_before' index (Nat.zero_le index) behind] at bar
          cases bar
      subst same
      rw [bar] at bar'
      cases bar'
      rw [listed, matchesIn_zero]
    · rw [all_open index (Nat.zero_le index)] at bar
      cases bar
  · rcases a.findAll_cases p m 0 with ⟨index, cause, -, -, -, listed⟩ | ⟨-, listed⟩
    · rw [listed]
      exact a.sorted_matchesIn p 0 index
    · rw [listed]
      exact a.sorted_matchesIn p 0 a.size

/-- Both entries of the sample archive can be visited, and both are listed. -/
theorem searches_list_matches_of_sample :
    (∃ m, openOn (.ofContent Sample.content) = (.ok Sample.archive, m)) ∧
      (∀ i, Sample.archive.barrier? (.ofContent Sample.content) 0 i = none) ∧
      (Sample.archive.findAll (.under "") (.ofContent Sample.content) 0).1 =
        [{ index := 0, name := "full/p" }, { index := 1, name := "incremental/q/aw" }] := by
  obtain ⟨-, listed, -, -, moments, -⟩ := Sample.archive.searches_list_matches (.under "")
  have all_open (i : Nat) : Sample.archive.barrier? (.ofContent Sample.content) 0 i = none := by
    rw [moments _ 0 i (Medium.faultless_ofContent Sample.content).sound]
    match i with
    | 0 =>
        have here : Sample.archive.directory.entries[0]? = some Sample.stream := rfl
        have begins : Sample.stream.dataStart Sample.archive.handle.content none = .ok 36 :=
          Sample.dataStart_entries.1
        simp only [headerFault?, here, Medium.ofContent, begins]
    | 1 =>
        have here : Sample.archive.directory.entries[1]? = some Sample.record := rfl
        have begins : Sample.record.dataStart Sample.archive.handle.content none = .ok 86 :=
          Sample.dataStart_entries.2
        simp only [headerFault?, here, Medium.ofContent, begins]
    | i + 2 =>
        rw [headerFault?, entries_of_size_le (Nat.le_add_left 2 i)]
  refine ⟨Sample.openOn_content, all_open, ?_⟩
  rw [listed (.ofContent Sample.content) all_open]
  rfl

end Archive
end BackupRestore
