/-
Module: BackupRestore.Proofs.Inflation
Purpose: Decoding compressed bytes as they come gives what decoding them at once gives.
Main exports: Parsed.Continues, Steady, Inflater.Ahead, Inflater.Ahead.step, Inflater.outcome,
  Inflater.Reaches, Inflater.reaches_run, Inflater.decoded_prefix_outcome, outcome_of_inflate
-/
import BackupRestore.Deflate.Inflater

namespace BackupRestore.Deflate

/-!
A reading of bits is steady: once it succeeds or has met bits that nothing can mend, bits that
come behind do not change that, and stand behind what it has left (`Steady`).  All readings of
compressed data are put together from steady ones.  So a step of an inflater makes the same of
the bits at hand whether or not more of them have come, and the bytes and the end that the
whole data leads to (`Inflater.outcome`) can be told at any time from the state of the inflater
and the bytes that are still to come.

The one reading that depends on more than the bits ahead skips to the end of a byte.  As bits
only come eight at a time, it is steady all the same.
-/

/-! ### The bits of a source -/

namespace BitSource

theorem next?_cases (s : BitSource) :
    (s.next? = none ∧ s.toBits = []) ∨
    ∃ bit rest, s.next? = some (bit, rest) ∧ s.toBits = bit :: rest.toBits := by
  obtain ⟨begun, whole⟩ := s
  cases begun with
  | cons bit begun => exact Or.inr ⟨bit, ⟨begun, whole⟩, rfl, rfl⟩
  | nil =>
      cases whole with
      | nil => exact Or.inl ⟨rfl, rfl⟩
      | cons byte whole => exact Or.inr ⟨_, _, rfl, rfl⟩

/-- The next bit is the same when more bits have come. -/
theorem next?_of_append {s t rest : BitSource} {bit : Bool} {more : List Bool}
    (bits : t.toBits = s.toBits ++ more) (next : s.next? = some (bit, rest)) :
    ∃ rest', t.next? = some (bit, rest') ∧ rest'.toBits = rest.toBits ++ more := by
  rcases s.next?_cases with ⟨none_left, -⟩ | ⟨bit₁, rest₁, next₁, split⟩
  · rw [next] at none_left
    cases none_left
  · rw [next] at next₁
    cases next₁
    rcases t.next?_cases with ⟨-, empty⟩ | ⟨bit', rest', next', split'⟩
    · rw [empty, split] at bits
      cases bits
    · rw [split, split', List.cons_append] at bits
      injection bits with same_bit behind
      subst same_bit
      exact ⟨rest', next', behind⟩

theorem toBits_append (s : BitSource) (bytes : List UInt8) :
    (s.append bytes).toBits = s.toBits ++ bytes.flatMap byteBits := by
  simp [append, toBits]

theorem toBits_align (s : BitSource) : s.align.toBits = s.toBits.drop (s.toBits.length % 8) := by
  have short : s.begun.length % 8 ≤ s.begun.length := Nat.mod_le _ _
  rw [length_toBits, size, Nat.add_mul_mod_self_left, toBits, toBits, align,
    List.drop_append_of_le_length short]

end BitSource

theorem eight_dvd_flatMap_byteBits (bytes : List UInt8) :
    8 ∣ (bytes.flatMap byteBits).length := by
  induction bytes with
  | nil => exact Nat.dvd_zero 8
  | cons b bytes ih =>
      rw [List.flatMap_cons, List.length_append, BitSource.length_byteBits]
      exact Nat.dvd_add (Nat.dvd_refl 8) ih

/-! ### Steady readings -/

/-- What a reading gives when `more` bits stand behind those of which it made `p`. -/
def Parsed.Continues {α : Type} (more : List Bool) (p q : Parsed α) : Prop :=
  match p with
  | .done value rest => ∃ rest', q = .done value rest' ∧ rest'.toBits = rest.toBits ++ more
  | .short => True
  | .corrupt => q = .corrupt

/-- More bytes behind those at hand change nothing of what a reading has made of these. -/
def Steady {α : Type} (f : BitSource → Parsed α) : Prop :=
  ∀ (s t : BitSource) (more : List Bool), 8 ∣ more.length → t.toBits = s.toBits ++ more →
    (f s).Continues more (f t)

section Readings

variable {α β : Type}

theorem steady_done (value : α) : Steady (Parsed.done value) := by
  intro s t more _ bits
  exact ⟨t, rfl, bits⟩

theorem steady_corrupt : Steady fun _ => (Parsed.corrupt : Parsed α) := by
  intro s t more _ _
  rfl

theorem steady_bind {f : BitSource → Parsed α} {g : α → BitSource → Parsed β} (first : Steady f)
    (second : ∀ value, Steady (g value)) : Steady fun s => (f s).bind g := by
  intro s t more whole bits
  have continues := first s t more whole bits
  cases read : f s with
  | done value rest =>
      rw [read] at continues
      obtain ⟨rest', read', bits'⟩ := continues
      simp only [read, read', Parsed.bind]
      exact second value rest rest' more whole bits'
  | short =>
      simp only [read, Parsed.bind]
      exact trivial
  | corrupt =>
      rw [read] at continues
      change f t = .corrupt at continues
      simp only [read, continues, Parsed.bind]
      rfl

theorem steady_number (n : Nat) : Steady (BitSource.number n) := by
  induction n with
  | zero => exact steady_done 0
  | succ n ih =>
      intro s t more whole bits
      cases next : s.next? with
      | none =>
          simp only [BitSource.number, next]
          exact trivial
      | some pair =>
          obtain ⟨bit, rest⟩ := pair
          obtain ⟨rest', next', behind⟩ := BitSource.next?_of_append bits next
          have continues := steady_bind ih
            (fun value => steady_done (bit.toNat + 2 * value)) rest rest' more whole behind
          simp only [BitSource.number, next, next']
          exact continues

theorem steady_tree (tree : CodeTree) : Steady tree.decode := by
  induction tree with
  | vacant => exact steady_corrupt
  | leaf symbol => exact steady_done symbol
  | fork zero one steady_zero steady_one =>
      intro s t more whole bits
      cases next : s.next? with
      | none =>
          simp only [CodeTree.decode, next]
          exact trivial
      | some pair =>
          obtain ⟨bit, rest⟩ := pair
          obtain ⟨rest', next', behind⟩ := BitSource.next?_of_append bits next
          simp only [CodeTree.decode, next, next']
          cases bit with
          | true => exact steady_one rest rest' more whole behind
          | false => exact steady_zero rest rest' more whole behind

theorem steady_decode (code : PrefixCode) : Steady code.decode := by
  -- Reading a symbol begins like reading it below a fork.
  have forked : code.decode = (CodeTree.fork code.zero code.one).decode := by
    funext s
    rw [PrefixCode.decode, CodeTree.decode]
  rw [forked]
  exact steady_tree _

theorem steady_readTriples (n : Nat) : Steady (readTriples n) := by
  induction n with
  | zero => exact steady_done []
  | succ n ih =>
      exact steady_bind (steady_number 3) fun value =>
        steady_bind ih fun values => steady_done (value :: values)

theorem steady_readRun (code : PrefixCode) : Steady (readRun code) := by
  refine steady_bind (steady_decode code) fun symbol => ?_
  by_cases direct : symbol < 16
  · simp only [if_pos direct]
    exact steady_done _
  · simp only [if_neg direct]
    split
    · exact steady_bind (steady_number 2) fun extra => steady_done _
    · split
      · exact steady_bind (steady_number 3) fun extra => steady_done _
      · exact steady_bind (steady_number 7) fun extra => steady_done _

theorem steady_readLengths (code : PrefixCode) (left : Nat) (before : Option Nat) :
    Steady (readLengths code left before) := by
  induction left using Nat.strongRecOn generalizing before with
  | _ left ih =>
      have unfolded : readLengths code left before = _ :=
        funext (readLengths.eq_def code left before)
      rw [unfolded]
      by_cases none_left : left = 0
      · simp only [if_pos none_left]
        exact steady_done []
      · simp only [if_neg none_left]
        refine steady_bind (steady_readRun code) fun run => ?_
        cases run.length.or before with
        | none => exact steady_corrupt
        | some length =>
            by_cases beyond : left < run.more + 1
            · simp only [if_pos beyond]
              exact steady_corrupt
            · simp only [if_neg beyond]
              exact steady_bind (ih _ (by omega) _) fun lengths => steady_done _

theorem steady_readCodes : Steady readCodes := by
  refine steady_bind (steady_number 5) fun hlit => ?_
  refine steady_bind (steady_number 5) fun hdist => ?_
  refine steady_bind (steady_number 4) fun hclen => ?_
  by_cases beyond : 286 < hlit + 257 ∨ 30 < hdist + 1
  · simp only [if_pos beyond]
    exact steady_corrupt
  · simp only [if_neg beyond]
    refine steady_bind (steady_readTriples _) fun triples => ?_
    cases lengthCode? triples with
    | none => exact steady_corrupt
    | some code =>
        refine steady_bind (steady_readLengths code _ none) fun lengths => ?_
        cases blockCodes? (hlit + 257) lengths with
        | none => exact steady_corrupt
        | some body => exact steady_done body

/-- A reading behind the end of the byte is steady, as whole bytes come. -/
theorem steady_align {f : BitSource → Parsed α} (steady : Steady f) :
    Steady fun s => f s.align := by
  intro s t more whole bits
  refine steady s.align t.align more whole ?_
  have same_place : t.toBits.length % 8 = s.toBits.length % 8 := by
    rw [bits, List.length_append, Nat.add_mod, Nat.mod_eq_zero_of_dvd whole, Nat.add_zero,
      Nat.mod_mod]
  rw [BitSource.toBits_align, BitSource.toBits_align, same_place, bits,
    List.drop_append_of_le_length (Nat.mod_le _ _)]

theorem steady_readStored : Steady readStored := by
  refine steady_bind (steady_align (steady_number 16)) fun length => ?_
  refine steady_bind (steady_number 16) fun inverted => ?_
  by_cases fits : length + inverted = 0xFFFF
  · simp only [if_pos fits]
    exact steady_done _
  · simp only [if_neg fits]
    exact steady_corrupt

theorem steady_readBody (kind : Nat) : Steady (readBody kind) := by
  unfold readBody
  split
  · exact steady_readStored
  · exact steady_done _
  · exact steady_readCodes
  · exact steady_corrupt

theorem steady_readBlockHeader : Steady readBlockHeader := by
  refine steady_bind (steady_number 1) fun final => ?_
  refine steady_bind (steady_number 2) fun kind => ?_
  exact steady_bind (steady_readBody kind) fun body => steady_done _

theorem steady_readDistance (distances : PrefixCode) (length : Nat) :
    Steady (readDistance distances length) := by
  refine steady_bind (steady_decode distances) fun symbol => ?_
  cases distanceRanges[symbol]? with
  | none => exact steady_corrupt
  | some range => exact steady_bind (steady_number range.2) fun extra => steady_done _

theorem steady_readItem (literals distances : PrefixCode) :
    Steady (readItem literals distances) := by
  refine steady_bind (steady_decode literals) fun symbol => ?_
  by_cases direct : symbol < 256
  · simp only [if_pos direct]
    exact steady_done _
  · simp only [if_neg direct]
    by_cases final : symbol = 256
    · simp only [if_pos final]
      exact steady_done _
    · simp only [if_neg final]
      cases lengthRanges[symbol - 257]? with
      | none => exact steady_corrupt
      | some range =>
          exact steady_bind (steady_number range.2) fun extra =>
            steady_readDistance distances (range.1 + extra)

end Readings

/-! ### Inflaters -/

/-- The bytes that a copy adds stand in front of those that there were. -/
theorem copyBack_grows {latestFirst : List UInt8} {distance : Nat} (some_back : distance ≠ 0)
    (within : distance ≤ latestFirst.length) (length : Nat) :
    ∃ added, copyBack latestFirst distance length = added ++ latestFirst ∧
      added.length = length := by
  fun_induction copyBack latestFirst distance length with
  | case1 latestFirst length none_back => exact absurd none_back some_back
  | case2 latestFirst length _ once =>
      refine ⟨_, rfl, ?_⟩
      rw [List.length_take, List.length_drop]
      omega
  | case3 latestFirst length _ beyond ih =>
      obtain ⟨added, copied, count⟩ := ih (by rw [List.length_append]; omega)
      refine ⟨added ++ latestFirst.take distance, by rw [copied, List.append_assoc], ?_⟩
      rw [List.length_append, count, List.length_take]
      omega

/-- Every copy reaches back at least one byte. -/
theorem copy_distance_pos {literals distances : PrefixCode} {length distance : Nat}
    {s rest : BitSource}
    (read : readItem literals distances s = .done (.copy length distance) rest) :
    distance ≠ 0 := by
  have ranges : ∀ range ∈ distanceRanges, range.1 ≠ 0 := by decide
  unfold readItem at read
  obtain ⟨symbol, s₁, -, read⟩ := Parsed.bind_eq_done read
  split at read
  · cases read
  · split at read
    · cases read
    · split at read
      · cases read
      · rename_i least width _
        obtain ⟨extra, s₂, -, read⟩ := Parsed.bind_eq_done read
        unfold readDistance at read
        obtain ⟨symbol', s₃, -, read⟩ := Parsed.bind_eq_done read
        split at read
        · cases read
        · rename_i least' width' known
          obtain ⟨extra', s₄, -, read⟩ := Parsed.bind_eq_done read
          have positive := ranges _ (List.mem_of_getElem? known)
          cases read
          intro none_back
          exact positive (Nat.eq_zero_of_add_eq_zero none_back).1

/-- How decoding ends at a step that cannot be made. -/
def Progress.stop? : Progress → Option Stop
  | .advanced _ => none
  | .starved => some .starved
  | .corrupt | .tooFar => some .corrupt
  | .finished => some .finished

namespace Inflater

/-- The second inflater has the bits `more` behind those of the first, and has come as far.
How many bytes wait for delivery is left open. -/
structure Ahead (more : List Bool) (s t : Inflater) : Prop where
  phase : t.phase = s.phase
  inLast : t.inLast = s.inLast
  latestFirst : t.latestFirst = s.latestFirst
  count : t.count = s.count
  bits : t.source.toBits = s.source.toBits ++ more

variable {more : List Bool} {s t next : Inflater}

theorem Ahead.apply (ahead : Ahead more s t) (item : Item) :
    ∃ next next', s.apply item = .advanced next ∧ t.apply item = .advanced next' ∧
      Ahead more next next' := by
  obtain ⟨phase, inLast, latestFirst, count, bits⟩ := ahead
  cases item with
  | literal byte =>
      refine ⟨_, _, rfl, rfl, phase, inLast, ?_, ?_, bits⟩
      · exact congrArg (byte :: ·) latestFirst
      · exact congrArg (· + 1) count
  | endOfBlock =>
      exact ⟨_, _, rfl, rfl, congrArg afterBlock inLast, inLast, latestFirst, count, bits⟩
  | copy length distance =>
      simp only [Inflater.apply, count]
      by_cases beyond : s.count < distance
      · simp only [if_pos beyond]
        exact ⟨_, _, rfl, rfl, rfl, inLast, latestFirst, rfl, bits⟩
      · simp only [if_neg beyond]
        refine ⟨_, _, rfl, rfl, phase, inLast, ?_, rfl, bits⟩
        exact congrArg (copyBack · distance length) latestFirst

/-- A step that does not starve is the same step when more bytes have come. -/
theorem Ahead.step (ahead : Ahead more s t) (whole : 8 ∣ more.length) :
    match s.step with
    | .advanced next => ∃ next', t.step = .advanced next' ∧ Ahead more next next'
    | .starved => True
    | stop => t.step = stop := by
  have bits := ahead.bits
  unfold Inflater.step
  rw [ahead.phase]
  cases s.phase with
  | finished => rfl
  | tooFar => rfl
  | blockStart =>
      have continues := steady_readBlockHeader s.source t.source more whole bits
      simp only
      cases read : readBlockHeader s.source with
      | short => exact trivial
      | corrupt =>
          rw [read] at continues
          change readBlockHeader t.source = .corrupt at continues
          rw [continues]
      | done header rest =>
          rw [read] at continues
          obtain ⟨rest', read', bits'⟩ := continues
          rw [read']
          exact ⟨_, rfl, rfl, rfl, ahead.latestFirst, ahead.count, bits'⟩
  | stored left =>
      have continues := steady_number 8 s.source t.source more whole bits
      simp only
      cases read : s.source.number 8 with
      | short => exact trivial
      | corrupt =>
          rw [read] at continues
          change t.source.number 8 = .corrupt at continues
          rw [continues]
      | done byte rest =>
          rw [read] at continues
          obtain ⟨rest', read', bits'⟩ := continues
          rw [read']
          refine ⟨_, rfl, ?_, ahead.inLast, ?_, ?_, bits'⟩
          · simp only [put, ahead.inLast]
          · exact congrArg (UInt8.ofNat byte :: ·) ahead.latestFirst
          · exact congrArg (· + 1) ahead.count
  | coded literals distances =>
      have continues := steady_readItem literals distances s.source t.source more whole bits
      simp only
      cases read : readItem literals distances s.source with
      | short => exact trivial
      | corrupt =>
          rw [read] at continues
          change readItem literals distances t.source = .corrupt at continues
          rw [continues]
      | done item rest =>
          rw [read] at continues
          obtain ⟨rest', read', bits'⟩ := continues
          have behind : Ahead more { s with source := rest, phase := .coded literals distances }
              { t with source := rest', phase := .coded literals distances } :=
            ⟨rfl, ahead.inLast, ahead.latestFirst, ahead.count, bits'⟩
          obtain ⟨next, next', applied, applied', ahead'⟩ := behind.apply item
          rw [read']
          simp only [applied, applied']
          exact ⟨next', rfl, ahead'⟩

theorem step_cases (s : Inflater) :
    (∃ next, s.step = .advanced next) ∨ ∃ stop, s.step.stop? = some stop := by
  cases s.step with
  | advanced next => exact Or.inl ⟨next, rfl⟩
  | starved => exact Or.inr ⟨.starved, rfl⟩
  | corrupt => exact Or.inr ⟨.corrupt, rfl⟩
  | tooFar => exact Or.inr ⟨.corrupt, rfl⟩
  | finished => exact Or.inr ⟨.finished, rfl⟩

/-- Where decoding ends, and not for want of bits, it ends in the same way with more of them. -/
theorem Ahead.same_step (ahead : Ahead more s t) (whole : 8 ∣ more.length) {stop : Stop}
    (stopped : s.step.stop? = some stop) (fed : stop ≠ .starved) : t.step = s.step := by
  have follows := ahead.step whole
  cases stepped : s.step with
  | advanced next =>
      rw [stepped] at stopped
      cases stopped
  | starved =>
      rw [stepped] at stopped
      cases stopped
      exact absurd rfl fed
  | corrupt =>
      rw [stepped] at follows
      exact follows
  | tooFar =>
      rw [stepped] at follows
      exact follows
  | finished =>
      rw [stepped] at follows
      exact follows

theorem ahead_feed (s : Inflater) (bytes : List UInt8) :
    Ahead (bytes.flatMap byteBits) s (s.feed bytes) :=
  ⟨rfl, rfl, rfl, rfl, s.source.toBits_append bytes⟩

theorem Ahead.symm (same : Ahead [] s t) : Ahead [] t s :=
  ⟨same.phase.symm, same.inLast.symm, same.latestFirst.symm, same.count.symm, by
    rw [same.bits, List.append_nil, List.append_nil]⟩

/-- Bytes that come behind the same bits are the same bits again. -/
theorem Ahead.feed (ahead : Ahead more s t) {bytes : List UInt8}
    (fed : more = bytes.flatMap byteBits) : Ahead [] (s.feed bytes) t :=
  ⟨ahead.phase, ahead.inLast, ahead.latestFirst, ahead.count, by
    rw [ahead.bits, fed, List.append_nil]
    exact (s.source.toBits_append bytes).symm⟩

/-- The same bits end decoding in the same way, however they are held. -/
theorem Ahead.stop (same : Ahead [] s t) {stop : Stop} (stopped : s.step.stop? = some stop) :
    t.step.stop? = some stop := by
  by_cases fed : stop = .starved
  · rcases t.step_cases with ⟨next, stepped⟩ | ⟨stop', stopped'⟩
    · have back := same.symm.step (Nat.dvd_zero 8)
      rw [stepped] at back
      obtain ⟨next', stepped', -⟩ := back
      rw [stepped'] at stopped
      cases stopped
    · by_cases fed' : stop' = .starved
      · rw [stopped', fed', fed]
      · rw [← same.symm.same_step (Nat.dvd_zero 8) stopped' fed']
        exact stopped
  · rw [same.same_step (Nat.dvd_zero 8) stopped fed]
    exact stopped

/-- The bytes that are decoded, and how decoding ends, when no more bits come. -/
def outcome (s : Inflater) : List UInt8 × Stop := (s.exhaust.1.decoded, s.exhaust.2)

theorem outcome_of_advanced (stepped : s.step = .advanced next) : s.outcome = next.outcome := by
  unfold outcome
  rw [exhaust]
  split <;> rename_i eq <;> rw [stepped] at eq <;> cases eq
  rfl

theorem outcome_of_stop {stop : Stop} (stopped : s.step.stop? = some stop) :
    s.outcome = (s.decoded, stop) := by
  unfold outcome
  rw [exhaust]
  split <;> rename_i eq <;> rw [eq] at stopped <;> cases stopped <;> rfl

/-- Inflaters that have come as far, with the same bits ahead, end alike. -/
theorem Ahead.outcome (same : Ahead [] s t) : t.outcome = s.outcome := by
  induction size : s.source.size using Nat.strongRecOn generalizing s t with
  | _ size ih =>
      rcases s.step_cases with ⟨next, stepped⟩ | ⟨stop, stopped⟩
      · have follows := same.step (Nat.dvd_zero 8)
        rw [stepped] at follows
        obtain ⟨next', stepped', same'⟩ := follows
        rw [outcome_of_advanced stepped, outcome_of_advanced stepped']
        exact ih _ (size ▸ size_step stepped) same' rfl
      · have decoded : t.decoded = s.decoded := congrArg List.reverse same.latestFirst
        rw [outcome_of_stop stopped, outcome_of_stop (same.stop stopped), decoded]

/-- A step leads to the same end, whatever bytes are to come. -/
theorem outcome_feed_of_advanced (stepped : s.step = .advanced next) (bytes : List UInt8) :
    (next.feed bytes).outcome = (s.feed bytes).outcome := by
  have follows := (s.ahead_feed bytes).step (eight_dvd_flatMap_byteBits bytes)
  rw [stepped] at follows
  obtain ⟨next', stepped', ahead⟩ := follows
  rw [outcome_of_advanced stepped']
  exact (ahead.feed rfl).outcome.symm

/-- An end that is not for want of bits is the end, whatever bytes are to come. -/
theorem outcome_feed_of_stop {stop : Stop} (stopped : s.step.stop? = some stop)
    (fed : stop ≠ .starved) (bytes : List UInt8) :
    (s.feed bytes).outcome = (s.decoded, stop) := by
  have same := (s.ahead_feed bytes).same_step (eight_dvd_flatMap_byteBits bytes) stopped fed
  rw [← same] at stopped
  exact outcome_of_stop stopped

/-! ### Runs of an inflater -/

/-- The count of the bytes is right, and none waits that has not been decoded. -/
structure Sane (s : Inflater) : Prop where
  counted : s.count = s.latestFirst.length
  waiting : s.waiting ≤ s.latestFirst.length

/-- How many bytes have been delivered. -/
def delivered (s : Inflater) : Nat := s.latestFirst.length - s.waiting

/-- The second inflater has come from the first by decoding alone.  All that it has decoded
more waits, and whatever bytes are to come, it leads to the same end. -/
structure Reaches (s t : Inflater) : Prop where
  outcome : ∀ bytes, (t.feed bytes).outcome = (s.feed bytes).outcome
  grows : ∃ added, t.latestFirst = added ++ s.latestFirst ∧
    t.count = s.count + added.length ∧ t.waiting = s.waiting + added.length

theorem Reaches.refl (s : Inflater) : s.Reaches s :=
  ⟨fun _ => rfl, [], rfl, rfl, rfl⟩

theorem Reaches.trans {u : Inflater} (first : s.Reaches t) (second : t.Reaches u) :
    s.Reaches u := by
  obtain ⟨added, bytes, count, waiting⟩ := first.grows
  obtain ⟨added', bytes', count', waiting'⟩ := second.grows
  refine ⟨fun fed => (second.outcome fed).trans (first.outcome fed), added' ++ added, ?_, ?_, ?_⟩
  · rw [bytes', bytes, List.append_assoc]
  · rw [count', count, List.length_append, Nat.add_comm added'.length, Nat.add_assoc]
  · rw [waiting', waiting, List.length_append, Nat.add_comm added'.length, Nat.add_assoc]

theorem Reaches.sane (reaches : s.Reaches t) (sane : s.Sane) : t.Sane := by
  obtain ⟨added, bytes, count, waiting⟩ := reaches.grows
  have counted := sane.counted
  have within := sane.waiting
  constructor
  · rw [bytes, List.length_append, count, counted, Nat.add_comm]
  · rw [bytes, List.length_append, waiting]
    omega

/-- Decoding delivers nothing. -/
theorem Reaches.delivered (reaches : s.Reaches t) : t.delivered = s.delivered := by
  obtain ⟨added, bytes, -, waiting⟩ := reaches.grows
  rw [Inflater.delivered, Inflater.delivered, bytes, List.length_append, waiting]
  omega

theorem grows_apply {item : Item} (counted : s.count = s.latestFirst.length)
    (some_back : ∀ length distance, item = .copy length distance → distance ≠ 0)
    (applied : s.apply item = .advanced next) :
    ∃ added, next.latestFirst = added ++ s.latestFirst ∧
      next.count = s.count + added.length ∧ next.waiting = s.waiting + added.length := by
  cases item with
  | literal byte =>
      cases applied
      exact ⟨[byte], rfl, rfl, rfl⟩
  | endOfBlock =>
      cases applied
      exact ⟨[], rfl, rfl, rfl⟩
  | copy length distance =>
      unfold apply at applied
      simp only at applied
      by_cases beyond : s.count < distance
      · rw [if_pos beyond] at applied
        cases applied
        exact ⟨[], rfl, rfl, rfl⟩
      · rw [if_neg beyond] at applied
        cases applied
        obtain ⟨added, copied, size⟩ := copyBack_grows (some_back length distance rfl)
          (counted ▸ Nat.le_of_not_lt beyond) length
        exact ⟨added, copied, by rw [size], by rw [size]⟩

theorem reaches_step (sane : s.Sane) (stepped : s.step = .advanced next) : s.Reaches next := by
  refine ⟨outcome_feed_of_advanced stepped, ?_⟩
  unfold step at stepped
  split at stepped
  · cases stepped
  · cases stepped
  · split at stepped <;> cases stepped
    exact ⟨[], rfl, rfl, rfl⟩
  · split at stepped <;> cases stepped
    exact ⟨[_], rfl, rfl, rfl⟩
  · split at stepped
    · rename_i item rest read
      have some_back : ∀ length distance, item = .copy length distance → distance ≠ 0 := by
        intro length distance eq
        rw [eq] at read
        exact copy_distance_pos read
      exact grows_apply (s := { s with source := rest }) sane.counted some_back stepped
    · cases stepped
    · cases stepped

theorem reaches_takeUp (s : Inflater) : s.Reaches s.takeUp := by
  refine ⟨?_, [], rfl, rfl, rfl⟩
  intro bytes
  refine Ahead.outcome ⟨rfl, rfl, rfl, rfl, ?_⟩
  simp only [feed, takeUp, BitSource.toBits_append, BitSource.toBits_takeUp, List.append_nil]

/-- What the reason for which a run has stopped says of the inflater that it has come to. -/
def Stops (t : Inflater) (wanted : Nat) : Stop → Prop
  | .enough => wanted ≤ t.waiting
  | stop => t.step.stop? = some stop

/-- A run decodes, and nothing else, and stops for a reason. -/
theorem reaches_run (sane : s.Sane) (wanted : Nat) :
    s.Reaches (s.run wanted).1 ∧ (s.run wanted).1.Stops wanted (s.run wanted).2 := by
  fun_induction run s wanted with
  | case1 s enough =>
      refine ⟨.refl s, ?_⟩
      simp only [hasEnough, Bool.or_eq_true, decide_eq_true_eq, Bool.and_eq_true,
        beq_iff_eq] at enough
      rcases enough with more | ⟨just, -⟩
      · exact Nat.le_of_lt more
      · exact Nat.le_of_eq just
  | case2 s _ next stepped _ ih =>
      have first := reaches_step sane stepped
      obtain ⟨rest, stops⟩ := ih (first.sane sane)
      exact ⟨first.trans rest, stops⟩
  | case3 s _ starved =>
      refine ⟨s.reaches_takeUp, ?_⟩
      have same : Ahead [] s s.takeUp :=
        ⟨rfl, rfl, rfl, rfl, by rw [List.append_nil]; exact s.source.toBits_takeUp⟩
      by_cases enough : wanted ≤ s.waiting
      · simp only [if_pos enough]
        exact enough
      · simp only [if_neg enough]
        exact same.stop (congrArg Progress.stop? starved)
  | case4 s _ tooFar =>
      refine ⟨.refl s, ?_⟩
      by_cases enough : wanted ≤ s.waiting
      · simp only [if_pos enough]
        exact enough
      · simp only [if_neg enough]
        exact congrArg Progress.stop? tooFar
  | case5 s _ corrupt => exact ⟨.refl s, congrArg Progress.stop? corrupt⟩
  | case6 s _ finished => exact ⟨.refl s, congrArg Progress.stop? finished⟩

/-! ### What has been decoded and what has been delivered -/

theorem Sane.feed (sane : s.Sane) (bytes : List UInt8) : (s.feed bytes).Sane :=
  ⟨sane.counted, sane.waiting⟩

/-- Bytes that have been decoded stay so to the end. -/
theorem decoded_prefix_outcome (sane : s.Sane) : s.decoded <+: s.outcome.1 := by
  induction size : s.source.size using Nat.strongRecOn generalizing s with
  | _ size ih =>
      rcases s.step_cases with ⟨next, stepped⟩ | ⟨stop, stopped⟩
      · have reaches := reaches_step sane stepped
        obtain ⟨added, bytes, -⟩ := reaches.grows
        have here : s.decoded <+: next.decoded :=
          ⟨added.reverse, by rw [decoded, decoded, bytes, List.reverse_append]⟩
        rw [outcome_of_advanced stepped]
        exact here.trans (ih _ (size ▸ size_step stepped) (reaches.sane sane) rfl)
      · exact ⟨[], by rw [outcome_of_stop stopped, List.append_nil]⟩

theorem length_decoded (s : Inflater) : s.decoded.length = s.latestFirst.length :=
  List.length_reverse

/-- The bytes delivered are the next ones of those decoded. -/
theorem deliver_eq (sane : s.Sane) (n : Nat) :
    (s.deliver n).1 = (s.decoded.drop s.delivered).take (min n s.waiting) := by
  have within := sane.waiting
  simp only [deliver, decoded, delivered]
  rw [List.drop_reverse, List.take_reverse, List.length_take, Nat.sub_sub_self within,
    Nat.min_eq_left within]

theorem delivered_deliver (sane : s.Sane) (n : Nat) :
    (s.deliver n).2.delivered = s.delivered + min n s.waiting := by
  have within := sane.waiting
  simp only [deliver, delivered]
  omega

theorem Sane.deliver (sane : s.Sane) (n : Nat) : (s.deliver n).2.Sane :=
  ⟨sane.counted, Nat.le_trans (Nat.sub_le _ _) sane.waiting⟩

theorem outcome_feed_deliver (s : Inflater) (n : Nat) (bytes : List UInt8) :
    ((s.deliver n).2.feed bytes).outcome = (s.feed bytes).outcome :=
  Ahead.outcome ⟨rfl, rfl, rfl, rfl, (List.append_nil _).symm⟩

theorem feed_append (s : Inflater) (bytes later : List UInt8) :
    s.feed (bytes ++ later) = (s.feed bytes).feed later := by
  simp only [feed, BitSource.append, List.append_assoc]

theorem feed_nil (s : Inflater) : s.feed [] = s := by
  simp only [feed, BitSource.append, List.append_nil]

end Inflater

/-- Bytes that can be inflated lead an inflater that has only them to their end. -/
theorem outcome_of_inflate {bytes whole : List UInt8} (inflated : inflate bytes = .ok whole) :
    (({} : Inflater).feed bytes).outcome = (whole, .finished) := by
  unfold inflate at inflated
  unfold Inflater.outcome
  split at inflated
  · rename_i final eq
    rw [eq]
    exact congrArg (·, Stop.finished) (Except.ok.inj inflated)
  · cases inflated
  · cases inflated
  · cases inflated

end BackupRestore.Deflate
