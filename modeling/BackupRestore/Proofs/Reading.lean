/-
Module: BackupRestore.Proofs.Reading
Purpose: What reading from a medium leaves alone, and what it brings when no read fails.
Main exports: Delivery.Sound, Medium.ReadsTo, Medium.fill_of_sound, Medium.read_of_sound,
  Medium.load_of_sound, Medium.Faultless, Medium.openHandle_of_faultless, Medium.LeadsTo,
  Medium.openHandle_cases
-/
import BackupRestore.Medium

namespace BackupRestore

/-!
Two facts about reading carry everything else.  A read changes nothing of a medium but
how its coming reads are answered, and where none of those was going to fail, none is
afterwards (`Medium.ReadsTo`).  And if no coming read fails, the bytes that a reader
collects are those that stand in the medium, in however many pieces they come and however
often a read is interrupted (`Delivery.Sound`).
-/

namespace Delivery

/-- No coming read fails: each is interrupted, or brings at least one byte. -/
structure Sound (d : Delivery) : Prop where
  unblocked : d.blocked = none
  unfailing : ∀ cause, .failed cause ∉ d.fates

/-- The reads behind the first one are sound if all are. -/
private theorem Sound.tail {d : Delivery} {fate : ReadFate} {fates : List ReadFate}
    (sound : d.Sound) (planned : d.fates = fate :: fates) :
    ({ d with fates } : Delivery).Sound := by
  refine ⟨sound.unblocked, ?_⟩
  intro cause member
  apply sound.unfailing cause
  rw [planned]
  exact List.mem_cons_of_mem _ member

theorem Sound.read {d d' : Delivery} {available wanted : Nat} {answer : ReadAnswer}
    (sound : d.Sound) (h : d.read available wanted = (answer, d')) :
    d'.Sound ∧ ∀ cause, answer ≠ .failed cause := by
  have unblocked := sound.unblocked
  unfold Delivery.read at h
  split at h
  · rename_i cause blocked
    rw [unblocked] at blocked
    cases blocked
  · split at h
    · simp only [Prod.mk.injEq] at h
      obtain ⟨rfl, rfl⟩ := h
      exact ⟨sound, by simp⟩
    · rename_i fates planned
      simp only [Prod.mk.injEq] at h
      obtain ⟨rfl, rfl⟩ := h
      exact ⟨sound.tail planned, by simp⟩
    · rename_i extra fates planned
      simp only [Prod.mk.injEq] at h
      obtain ⟨rfl, rfl⟩ := h
      exact ⟨sound.tail planned, by simp⟩
    · rename_i cause fates planned
      exfalso
      apply sound.unfailing cause
      rw [planned]
      exact List.mem_cons_self

/-- A reader that repeats interrupted reads gets at least one byte, if there is one. -/
theorem Sound.readOn {d : Delivery} (sound : d.Sound) (available wanted : Nat) :
    ∃ n d', d.readOn available wanted = (.ok n, d') ∧ d'.Sound ∧
      (0 < available → 0 < wanted → 0 < n) := by
  fun_induction Delivery.readOn d available wanted with
  | case1 d n d' h =>
      exact ⟨n, d', rfl, (sound.read h).1, fun left asked => read_moved_pos h left asked⟩
  | case2 d cause d' h => exact absurd rfl ((sound.read h).2 cause)
  | case3 d d' h _ ih => exact ih (sound.read h).1

/-- Filling stops short of what is wanted and available only for a failure. -/
theorem fill_of_none (d : Delivery) (available wanted : Nat)
    (h : (d.fill available wanted).2.1 = none) :
    (d.fill available wanted).1 = min wanted available := by
  fun_induction Delivery.fill d available wanted with
  | case1 => simp
  | case2 => simp at h
  | case3 d available wanted _ d' _ _ ih => exact ih h
  | case4 d available wanted asked d' hr =>
      rcases Nat.eq_zero_or_pos available with none_left | left
      · simp [none_left]
      · have := read_moved_pos hr left (Nat.pos_of_ne_zero asked)
        omega
  | case5 d available wanted asked n d' hr moved _ more failure d'' filled ih =>
      have bound := read_moved_le hr
      rw [filled] at ih
      simp only at h ih ⊢
      rw [ih h]
      omega

theorem Sound.fill {d : Delivery} (sound : d.Sound) (available wanted : Nat) :
    (d.fill available wanted).2.1 = none ∧ (d.fill available wanted).2.2.Sound := by
  fun_induction Delivery.fill d available wanted with
  | case1 => exact ⟨rfl, sound⟩
  | case2 d available wanted _ cause d' h => exact absurd rfl ((sound.read h).2 cause)
  | case3 d available wanted _ d' h _ ih => exact ih (sound.read h).1
  | case4 d available wanted _ d' h => exact ⟨rfl, (sound.read h).1⟩
  | case5 d available wanted _ n d' h _ _ more failure d'' filled ih =>
      have rest := ih (sound.read h).1
      rw [filled] at rest
      exact rest

end Delivery

namespace Handle

/-- All bytes from the handle's place on. -/
def rest (h : Handle) : List UInt8 := h.content.toList.drop h.position

@[simp] theorem rest_advance (h : Handle) (n : Nat) : (h.advance n).rest = h.rest.drop n := by
  simp only [rest, advance, List.drop_drop]

theorem upcoming_eq_take (h : Handle) (n : Nat) : h.upcoming n = h.rest.take n := by
  simp only [upcoming, rest, Content.slice, Array.toList_extract, List.extract_eq_take_drop]
  rw [Nat.add_sub_cancel_left]

theorem available_eq_length (h : Handle) : h.available = h.rest.length := by
  rw [available, rest, List.length_drop, Array.length_toList]

theorem upcoming_min (h : Handle) (n : Nat) : h.upcoming (min n h.available) = h.upcoming n := by
  rw [upcoming_eq_take, upcoming_eq_take, available_eq_length]
  exact List.take_eq_take_min.symm

@[simp] theorem upcoming_zero (h : Handle) : h.upcoming 0 = [] := by
  rw [upcoming_eq_take, List.take_zero]

/-- What is upcoming comes as a first piece and what is upcoming behind it. -/
theorem upcoming_add (h : Handle) (n k : Nat) :
    h.upcoming (n + k) = h.upcoming n ++ (h.advance n).upcoming k := by
  rw [upcoming_eq_take, upcoming_eq_take, upcoming_eq_take, rest_advance, List.take_add]

/-- The next bytes of what is upcoming are upcoming. -/
theorem upcoming_take (h : Handle) (limit n : Nat) :
    (h.upcoming limit).take n = h.upcoming (min n limit) := by
  rw [upcoming_eq_take, upcoming_eq_take, List.take_take]

/-- Behind the next bytes, what is upcoming is what stood behind them. -/
theorem upcoming_drop (h : Handle) (limit n : Nat) :
    (h.upcoming limit).drop n =
      (h.advance (min (min n limit) h.available)).upcoming
        (limit - min (min n limit) h.available) := by
  rw [upcoming_eq_take, upcoming_eq_take, available_eq_length, rest_advance]
  generalize h.rest = ahead
  rw [← List.drop_take]
  rcases Nat.le_total (min limit ahead.length) n with beyond | within
  -- Behind the end of what is upcoming, both sides are empty.
  · have all : (ahead.take limit).length ≤ n := by
      rw [List.length_take]
      exact beyond
    have moved : min (min n limit) ahead.length = min limit ahead.length := by omega
    rw [moved, List.drop_of_length_le all, ← List.length_take, List.drop_length]
  · have moved : min (min n limit) ahead.length = n := by omega
    rw [moved]

end Handle

namespace Medium

/-- The second medium is the first after some reads. -/
def ReadsTo (m m' : Medium) : Prop :=
  ∃ delivery : Delivery, (m.delivery.Sound → delivery.Sound) ∧ m' = { m with delivery }

namespace ReadsTo

variable {m m' m'' : Medium}

theorem refl (m : Medium) : m.ReadsTo m := ⟨m.delivery, id, rfl⟩

theorem of_sound (m : Medium) {delivery : Delivery} (sound : delivery.Sound) :
    m.ReadsTo { m with delivery } :=
  ⟨delivery, fun _ => sound, rfl⟩

theorem trans (first : m.ReadsTo m') (second : m'.ReadsTo m'') : m.ReadsTo m'' := by
  obtain ⟨d, sound, rfl⟩ := first
  obtain ⟨d', sound', rfl⟩ := second
  exact ⟨d', fun start => sound' (sound start), rfl⟩

theorem live (reads : m.ReadsTo m') : m'.live = m.live := by
  obtain ⟨d, -, rfl⟩ := reads
  rfl

theorem opens (reads : m.ReadsTo m') : m'.opens = m.opens := by
  obtain ⟨d, -, rfl⟩ := reads
  rfl

theorem content (reads : m.ReadsTo m') : m'.content = m.content := by
  obtain ⟨d, -, rfl⟩ := reads
  rfl

theorem reach (reads : m.ReadsTo m') : m'.reach = m.reach := by
  obtain ⟨d, -, rfl⟩ := reads
  rfl

end ReadsTo

/-! ### Reads that may fail -/

theorem reads_read (m : Medium) (h : Handle) (wanted : Nat) :
    m.ReadsTo (m.read h wanted).2.2 := by
  have kept : m.delivery.Sound → (m.delivery.readOn h.available wanted).2.Sound := by
    intro sound
    obtain ⟨n, d, eq, sound', -⟩ := sound.readOn h.available wanted
    rw [eq]
    exact sound'
  unfold read
  split <;> rename_i eq <;> rw [eq] at kept <;> exact ⟨_, kept, rfl⟩

theorem reads_fill (m : Medium) (h : Handle) (wanted : Nat) :
    m.ReadsTo (m.fill h wanted).2.2.2 :=
  ⟨_, fun sound => (sound.fill h.available wanted).2, rfl⟩

theorem reads_readExactly (m : Medium) (h : Handle) (wanted : Nat) :
    m.ReadsTo (m.readExactly h wanted).2.2 := by
  have filled := m.reads_fill h wanted
  unfold readExactly
  split
  · rename_i eq
    rwa [eq] at filled
  · rename_i eq
    rw [eq] at filled
    split <;> exact filled

theorem reads_load (m : Medium) (h : Handle) : m.ReadsTo (m.load h).2 := by
  have kept := fun sound : m.delivery.Sound =>
    (sound.fill (h.moveTo 0).available (h.moveTo 0).available).2
  simp only [load]
  split <;> rename_i eq <;> rw [eq] at kept <;> exact ⟨_, kept, rfl⟩

/-- Bytes that have come without a failure are those that stand in the medium. -/
theorem fill_of_none {m m' : Medium} {h h' : Handle} {wanted : Nat} {bytes : List UInt8}
    (filled : m.fill h wanted = (bytes, none, h', m')) :
    bytes = h.upcoming wanted ∧ h' = h.advance (min wanted h.available) := by
  have count := m.delivery.fill_of_none h.available wanted
  simp only [fill, Prod.mk.injEq] at filled
  obtain ⟨rfl, failure, rfl, -⟩ := filled
  rw [count failure, Handle.upcoming_min]
  exact ⟨rfl, rfl⟩

theorem readExactly_eq_ok {m m' : Medium} {h h' : Handle} {wanted : Nat} {bytes : List UInt8}
    (read : m.readExactly h wanted = (.ok bytes, h', m')) :
    bytes = h.upcoming wanted ∧ bytes.length = wanted := by
  unfold readExactly at read
  split at read
  · cases read
  · rename_i filled
    split at read
    · rename_i whole
      cases read
      exact ⟨(fill_of_none filled).1, whole⟩
    · cases read

theorem seek_eq_ok {m : Medium} {h h' : Handle} {position : Nat}
    (sought : m.seek h position = .ok h') :
    m.reach.any (· < position) = false ∧ h' = h.moveTo position := by
  unfold seek at sought
  split at sought
  · cases sought
  · rename_i reachable
    cases sought
    exact ⟨eq_false_of_ne_true reachable, rfl⟩

/-- An archive that has been loaded has been loaded whole. -/
theorem load_eq_ok {m m' : Medium} {h : Handle} {c : Content}
    (loaded : m.load h = (.ok c, m')) : c = h.content := by
  have count := m.delivery.fill_of_none (h.moveTo 0).available (h.moveTo 0).available
  simp only [load] at loaded
  split at loaded
  · simp at loaded
  · rename_i n delivery eq
    rw [eq] at count
    simp only [Prod.mk.injEq, Except.ok.injEq] at loaded
    have whole : n = h.content.size := by
      simpa [Handle.moveTo, Handle.available] using count rfl
    rw [← loaded.1, whole, Array.extract_size]

/-! ### Reads of which none fails -/

theorem fill_of_sound {m : Medium} (sound : m.delivery.Sound) (h : Handle) (wanted : Nat) :
    ∃ delivery : Delivery, delivery.Sound ∧ m.fill h wanted =
      (h.upcoming wanted, none, h.advance (min wanted h.available), { m with delivery }) := by
  have filled := sound.fill h.available wanted
  refine ⟨(m.delivery.fill h.available wanted).2.2, filled.2, ?_⟩
  simp only [fill, filled.1, m.delivery.fill_of_none _ _ filled.1, Handle.upcoming_min]

theorem read_of_sound {m : Medium} (sound : m.delivery.Sound) (h : Handle) (wanted : Nat) :
    ∃ (n : Nat) (delivery : Delivery), delivery.Sound ∧ n ≤ wanted ∧ n ≤ h.available ∧
      (0 < h.available → 0 < wanted → 0 < n) ∧
      m.read h wanted = (.ok (h.upcoming n), h.advance n, { m with delivery }) := by
  obtain ⟨n, d, eq, sound', moved⟩ := sound.readOn h.available wanted
  have bound := Delivery.readOn_le eq
  exact ⟨n, d, sound', bound.1, bound.2, moved, by simp only [read, eq]⟩

theorem load_of_sound {m : Medium} (sound : m.delivery.Sound) (h : Handle) :
    ∃ delivery : Delivery, delivery.Sound ∧ m.load h = (.ok h.content, { m with delivery }) := by
  have filled := sound.fill (h.moveTo 0).available (h.moveTo 0).available
  have count := m.delivery.fill_of_none _ _ filled.1
  refine ⟨_, filled.2, ?_⟩
  simp only [load]
  generalize m.delivery.fill (h.moveTo 0).available (h.moveTo 0).available = answer at filled count
  obtain ⟨n, failure, delivery⟩ := answer
  simp only at filled count
  obtain ⟨rfl, -⟩ := filled
  simp [count, Handle.moveTo, Handle.available]

theorem readExactly_of_sound {m : Medium} (sound : m.delivery.Sound) (h : Handle) (wanted : Nat) :
    ∃ delivery : Delivery, delivery.Sound ∧ m.readExactly h wanted =
      (if (h.upcoming wanted).length = wanted then .ok (h.upcoming wanted) else .error .cutShort,
        h.advance (min wanted h.available), { m with delivery }) := by
  obtain ⟨d, sound', filled⟩ := fill_of_sound sound h wanted
  refine ⟨d, sound', ?_⟩
  simp only [readExactly, filled]
  split <;> rfl

/-! ### Opens -/

/-- The medium holds the bytes `c`, and none of its coming opens and reads fails. -/
structure Faultless (m : Medium) (c : Content) : Prop where
  content : m.content = .ok c
  admitting : m.refusal = none
  planned : ∀ fate ∈ m.openFates, fate = none
  unrefused : m.refusedNext = none
  sound : m.delivery.Sound

/-- A medium that gives no trouble is faultless. -/
theorem faultless_ofContent (c : Content) : (ofContent c).Faultless c where
  content := rfl
  admitting := rfl
  planned := by simp [ofContent]
  unrefused := rfl
  sound := ⟨rfl, by simp [ofContent]⟩

theorem Faultless.withDelivery {m : Medium} {c : Content} (faultless : m.Faultless c)
    {delivery : Delivery} (sound : delivery.Sound) :
    ({ m with delivery } : Medium).Faultless c :=
  { faultless with sound }

theorem Faultless.release {m : Medium} {c : Content} (faultless : m.Faultless c) :
    m.release.Faultless c :=
  ⟨faultless.content, faultless.admitting, faultless.planned, faultless.unrefused,
    faultless.sound⟩

@[simp] theorem release_live (m : Medium) : m.release.live = m.live - 1 := rfl

@[simp] theorem release_opens (m : Medium) : m.release.opens = m.opens := rfl

/-- A planned refusal is all that looking it up uses up. -/
theorem takeOpenFate_eq (m : Medium) :
    ∃ openFates refusedNext, m.takeOpenFate.2 = { m with openFates, refusedNext } := by
  unfold takeOpenFate
  split
  · exact ⟨_, m.refusedNext, rfl⟩
  · exact ⟨m.openFates, m.refusedNext, rfl⟩
  · exact ⟨m.openFates, _, rfl⟩
  · exact ⟨m.openFates, _, rfl⟩

/-- Where no open is refused, no refusal is planned for the next one either. -/
theorem Faultless.takeOpenFate {m : Medium} {c : Content} (faultless : m.Faultless c) :
    ∃ openFates, m.takeOpenFate = (none, { m with openFates }) ∧
      ∀ fate ∈ openFates, fate = none := by
  cases fates : m.openFates with
  | nil =>
      have taken : m.takeOpenFate = (none, m) := by
        simp only [Medium.takeOpenFate, fates, faultless.unrefused]
      exact ⟨m.openFates, taken, by simp [fates]⟩
  | cons fate rest =>
      have admitted : fate = none := faultless.planned fate (by simp [fates])
      refine ⟨rest, ?_, fun f member => faultless.planned f ?_⟩
      · simp only [Medium.takeOpenFate, fates, admitted]
      · rw [fates]
        exact List.mem_cons_of_mem _ member

theorem openHandle_of_faultless {m : Medium} {c : Content} (faultless : m.Faultless c) :
    ∃ m', m.openHandle = (.ok { content := c }, m') ∧ m'.Faultless c ∧ m'.live = m.live + 1 ∧
      m'.opens = m.opens + 1 ∧ m'.reach = m.reach := by
  obtain ⟨openFates, taken, planned⟩ := faultless.takeOpenFate
  refine ⟨{ m with openFates, opens := m.opens + 1, live := m.live + 1 }, ?_, ?_, rfl, rfl, rfl⟩
  · simp only [openHandle, taken, faultless.admitting, faultless.content, Option.or_none]
  · exact { faultless with planned }

/-! ### What every use of a medium keeps -/

/-- The second medium holds the same bytes as the first, and where no open or read of the
first was going to fail, none of the second is. -/
structure LeadsTo (m m' : Medium) : Prop where
  content : m'.content = m.content
  reach : m'.reach = m.reach
  faultless : ∀ c, m.Faultless c → m'.Faultless c

namespace LeadsTo

variable {m m' m'' : Medium}

theorem refl (m : Medium) : m.LeadsTo m := ⟨rfl, rfl, fun _ faultless => faultless⟩

theorem trans (first : m.LeadsTo m') (second : m'.LeadsTo m'') : m.LeadsTo m'' where
  content := second.content.trans first.content
  reach := second.reach.trans first.reach
  faultless c := fun faultless => second.faultless c (first.faultless c faultless)

theorem release (leads : m.LeadsTo m') : m.LeadsTo m'.release :=
  leads.trans ⟨rfl, rfl, fun _ faultless => faultless.release⟩

end LeadsTo

theorem ReadsTo.leadsTo {m m' : Medium} (reads : m.ReadsTo m') : m.LeadsTo m' := by
  obtain ⟨d, kept, rfl⟩ := reads
  exact ⟨rfl, rfl, fun c faultless => faultless.withDelivery (kept faultless.sound)⟩

theorem leadsTo_takeOpenFate (m : Medium) : m.LeadsTo m.takeOpenFate.2 := by
  obtain ⟨openFates, refusedNext, rest⟩ := m.takeOpenFate_eq
  refine ⟨by rw [rest], by rw [rest], ?_⟩
  intro c faultless
  obtain ⟨openFates, taken, planned⟩ := faultless.takeOpenFate
  rw [taken]
  exact { faultless with planned }

/-- An open that succeeds adds one handle, and one that is refused none. -/
theorem openHandle_cases (m : Medium) :
    (∃ cause m', m.openHandle = (.error cause, m') ∧ m.LeadsTo m' ∧ m'.live = m.live ∧
      m'.opens = m.opens) ∨
    (∃ c m', m.openHandle = (.ok { content := c }, m') ∧ m.content = .ok c ∧ m.LeadsTo m' ∧
      m'.live = m.live + 1 ∧ m'.opens = m.opens + 1) := by
  have leads := m.leadsTo_takeOpenFate
  obtain ⟨openFates, refusedNext, rest⟩ := m.takeOpenFate_eq
  unfold openHandle
  generalize m.takeOpenFate = taken at rest leads
  obtain ⟨planned, m₁⟩ := taken
  simp only at rest leads ⊢
  subst rest
  split
  · exact Or.inl ⟨_, _, rfl, leads, rfl, rfl⟩
  · exact Or.inl ⟨_, _, rfl, leads, rfl, rfl⟩
  · rename_i c _ found
    have counted : ({ m with openFates, refusedNext } : Medium).LeadsTo
        { m with openFates, refusedNext, opens := m.opens + 1, live := m.live + 1 } :=
      ⟨rfl, rfl, fun c faultless => { faultless with }⟩
    exact Or.inr ⟨c, _, rfl, found, leads.trans counted, rfl, rfl⟩

end Medium

end BackupRestore
