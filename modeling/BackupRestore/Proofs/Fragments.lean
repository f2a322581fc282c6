/-
Module: BackupRestore.Proofs.Fragments
Purpose: Chunks are the same in however many pieces the medium brings the bytes.
Main exports: Cursor.sane_openAt, Cursor.sane_readChunk, Cursor.Steady, Cursor.steady_of_invariant,
  Cursor.readChunks_of_steady, Cursor.Inflow.steady_of_intact, Cursor.Apportioned, Cursor.Pours,
  Cursor.pours_of_intact, Cursor.pours_of_openAt, Cursor.readChunks_ignores_fragments
-/
import BackupRestore.Proofs.SingleReads
import BackupRestore.Proofs.Spans
import BackupRestore.Proofs.WholeReads

namespace BackupRestore.Cursor

/-!
A medium brings bytes in pieces, as it likes, and interrupts reads as often as it likes.  What is
taken for granted is that single reads of a cursor bring certain bytes and then the end or one
failure (`Cursor.Steady`): of stored data that is so, and of compressed data it is so unless the
data is damaged.  Then a chunk is told by these bytes and its size, whatever the pieces were, and
so are the chunks behind it.
-/

/-! ### Cursors that can be had -/

namespace Inflow

variable {f : Inflow}

theorem sane_forget (sane : f.inflater.Sane) : f.forget.inflater.Sane :=
  ⟨sane.counted, Nat.zero_le _⟩

theorem sane_fetch (m : Medium) (sane : f.inflater.Sane) : (f.fetch m).2.1.inflater.Sane := by
  unfold fetch
  split
  · exact sane
  · split
    · exact sane
    · exact sane.feed _

theorem sane_deliverLast (m : Medium) (sane : f.inflater.Sane) (before n : Nat) :
    (f.deliverLast m before n).2.1.inflater.Sane := by
  have delivered : (f.deliver n).2.inflater.Sane := sane.deliver n
  unfold deliverLast
  generalize f.deliver n = answer at delivered
  obtain ⟨bytes, next⟩ := answer
  simp only at delivered ⊢
  split
  · have fetched := sane_fetch m delivered
    split <;> rename_i eq <;> rw [eq] at fetched
    · exact sane_forget fetched
    · exact fetched
  · exact delivered

theorem sane_fill (m : Medium) (sane : f.inflater.Sane) (before n : Nat) :
    (f.fill m before n).2.1.inflater.Sane := by
  induction left : f.limit using Nat.strongRecOn generalizing m f before with
  | _ limit ih =>
      have running := (Deflate.Inflater.reaches_run sane n).1.sane sane
      rw [fill_eq]
      generalize f.inflater.run n = ran at running
      obtain ⟨inflater, stop⟩ := ran
      have decoded : ({ f with inflater } : Inflow).inflater.Sane := running
      cases stop with
      | enough => exact running.deliver n
      | finished => exact sane_deliverLast m decoded before n
      | corrupt => exact sane_forget decoded
      | starved =>
          have fetched := sane_fetch m decoded
          simp only
          split <;> rename_i eq <;> rw [eq] at fetched
          · exact sane_forget fetched
          · exact sane_forget fetched
          · rename_i k next m₁
            have shorter := limit_fetch eq
            simp only at shorter
            exact ih next.limit (by omega) m₁ fetched _ rfl

theorem sane_readChunk (m : Medium) (sane : f.inflater.Sane) (n : Nat) :
    (f.readChunk m n).2.1.inflater.Sane := by
  unfold readChunk
  split
  · exact sane
  · split
    · have fetched := sane_fetch m sane
      split <;> rename_i eq <;> rw [eq] at fetched
      · exact sane_forget fetched
      · exact sane_fill _ fetched 0 n
    · exact sane_fill m sane 0 n

end Inflow

/-- A cursor is sane after every chunk, also after one that has failed. -/
theorem sane_readChunk {c : Cursor} (m : Medium) (sane : c.Sane) (n : Nat) :
    (c.readChunk m n).2.1.Sane := by
  cases c with
  | stored handle limit =>
      simp only [readChunk]
      split <;> trivial
  | deflated handle limit inflater =>
      exact Inflow.sane_readChunk (f := { handle, limit, inflater }) m sane n

/-- A cursor is sane when it is opened. -/
theorem sane_openAt {m m' : Medium} {h : Handle} {path : String} {span : PayloadSpan} {c : Cursor}
    (opened : openAt m h path span = (.ok c, m')) : c.Sane := by
  unfold openAt at opened
  split at opened
  · cases opened
  · split at opened
    · cases opened
    · split at opened
      · cases opened
      · split at opened
        · cases opened
        · simp only at opened
          split at opened
          · cases opened
          · split at opened
            · cases opened
            · split at opened <;> cases opened
              · trivial
              · exact ⟨rfl, Nat.zero_le _⟩

/-! ### What single reads bring -/

namespace Piece

/-- The bytes that have come. -/
def bytes : Piece → List UInt8
  | brought bytes => bytes
  | interrupted | failed _ => []

/-- The piece can come from a read of at most `n` bytes where `rest` is still to come, and then the
end or a failure, and that for good. -/
def Fits (rest : List UInt8) (ending : Option IoError) (n : Nat) : Piece → Prop
  | brought bytes => bytes.length ≤ n ∧ bytes <+: rest ∧ (bytes = [] → rest = [] ∧ ending = none)
  | interrupted => True
  | failed cause => rest = [] ∧ ending = some cause

theorem Fits.beginning {rest : List UInt8} {ending : Option IoError} {n : Nat} {piece : Piece}
    (fits : piece.Fits rest ending n) : piece.bytes <+: rest := by
  cases piece with
  | brought bytes => exact fits.2.1
  | interrupted => exact List.nil_prefix
  | failed cause => exact List.nil_prefix

theorem Fits.split {rest : List UInt8} {ending : Option IoError} {n : Nat} {piece : Piece}
    (fits : piece.Fits rest ending n) :
    rest = piece.bytes ++ rest.drop piece.bytes.length := by
  obtain ⟨later, rfl⟩ := fits.beginning
  rw [List.drop_left]

end Piece

/-- Single reads, of which none fails for the medium, have brought `bytes` and led to the second
cursor. -/
inductive ReadsOn (c : Cursor) : List UInt8 → Cursor → Prop where
  | start : c.ReadsOn [] c
  | read {bytes : List UInt8} {c' : Cursor} {m : Medium} {n : Nat} (before : c.ReadsOn bytes c')
      (sound : m.delivery.Sound) (asked : 0 < n) :
      c.ReadsOn (bytes ++ (c'.read m n).1.bytes) (c'.read m n).2.1

/-- Single reads bring `payload` and then the end, or the failure `ending`, in whatever pieces the
bytes of the medium come. -/
def Steady (c : Cursor) (payload : List UInt8) (ending : Option IoError) : Prop :=
  ∀ bytes c', c.ReadsOn bytes c' →
    ∃ rest, payload = bytes ++ rest ∧
      ∀ (m : Medium) (n : Nat), m.delivery.Sound → 0 < n → (c'.read m n).1.Fits rest ending n

section Steady

variable {c c' : Cursor} {m : Medium} {payload : List UInt8} {ending : Option IoError} {n : Nat}

theorem ReadsOn.after {bytes : List UInt8} (sound : m.delivery.Sound) (asked : 0 < n)
    (further : (c.read m n).2.1.ReadsOn bytes c') :
    c.ReadsOn ((c.read m n).1.bytes ++ bytes) c' := by
  induction further with
  | start =>
      rw [List.append_nil]
      exact .read .start sound asked
  | read _ sound' asked' ih =>
      rw [← List.append_assoc]
      exact .read ih sound' asked'

theorem Steady.fits (steady : c.Steady payload ending) (sound : m.delivery.Sound)
    (asked : 0 < n) : (c.read m n).1.Fits payload ending n := by
  obtain ⟨rest, whole, fits⟩ := steady [] c .start
  obtain rfl : payload = rest := whole
  exact fits m n sound asked

theorem Steady.read (steady : c.Steady payload ending) (sound : m.delivery.Sound)
    (asked : 0 < n) :
    (c.read m n).2.1.Steady (payload.drop (c.read m n).1.bytes.length) ending := by
  intro bytes c' further
  obtain ⟨rest, whole, fits⟩ := steady _ _ (further.after sound asked)
  refine ⟨rest, ?_, fits⟩
  rw [whole, List.append_assoc, List.drop_left]

/-- What fits at each read, and is kept by each, is steady. -/
theorem steady_of_invariant (Kept : Cursor → List UInt8 → Prop) (kept : Kept c payload)
    (step : ∀ {c : Cursor} {rest : List UInt8} {m : Medium} {n : Nat}, Kept c rest →
      m.delivery.Sound → 0 < n → (c.read m n).1.Fits rest ending n ∧
        Kept (c.read m n).2.1 (rest.drop (c.read m n).1.bytes.length)) :
    c.Steady payload ending := by
  have along : ∀ {bytes c'}, c.ReadsOn bytes c' →
      ∃ rest, payload = bytes ++ rest ∧ Kept c' rest := by
    intro bytes c' reads
    induction reads with
    | start => exact ⟨payload, rfl, kept⟩
    | read _ sound asked ih =>
        obtain ⟨rest, whole, kept⟩ := ih
        obtain ⟨fits, kept'⟩ := step kept sound asked
        refine ⟨_, ?_, kept'⟩
        rw [whole, List.append_assoc, ← fits.split]
  intro bytes c' reads
  obtain ⟨rest, whole, kept⟩ := along reads
  exact ⟨rest, whole, fun m n sound asked => (step kept sound asked).1⟩

end Steady

/-! ### Chunks -/

/-- The answer to a chunk of `n` bytes where `payload` is to come, and then the end or a failure. -/
def chunkOf (ending : Option IoError) (payload : List UInt8) (n : Nat) :
    Except IoError (List UInt8) :=
  if n ≤ payload.length then .ok (payload.take n)
  else
    match ending with
    | none => .ok payload
    | some cause => .error cause

/-- The answers to chunks of some sizes, one after the other. -/
def deal (ending : Option IoError) : List UInt8 → List Nat → List (Except IoError (List UInt8))
  | _, [] => []
  | payload, size :: sizes => chunkOf ending payload size :: deal ending (payload.drop size) sizes

theorem chunkOf_none (payload : List UInt8) (n : Nat) :
    chunkOf none payload n = .ok (payload.take n) := by
  unfold chunkOf
  split
  · rfl
  · rename_i beyond
    rw [List.take_of_length_le (Nat.le_of_not_le beyond)]

/-- A piece in front of a chunk makes one chunk with it. -/
theorem map_chunkOf {piece rest : List UInt8} {ending : Option IoError} {n : Nat}
    (within : piece.length ≤ n) :
    (chunkOf ending rest (n - piece.length)).map (piece ++ ·) =
      chunkOf ending (piece ++ rest) n := by
  have fits : n - piece.length ≤ rest.length ↔ n ≤ (piece ++ rest).length := by
    rw [List.length_append]
    omega
  unfold chunkOf
  by_cases short : n ≤ (piece ++ rest).length
  · rw [if_pos short, if_pos (fits.2 short), List.take_append, List.take_of_length_le within]
    rfl
  · rw [if_neg short, if_neg (mt fits.1 short)]
    cases ending <;> rfl

/-- Reading on collects the bytes that are to come. -/
theorem Collects.answer_eq {n : Nat} {piece : Piece} {c c' : Cursor} {m : Medium}
    {answer : Except IoError (List UInt8)} {payload : List UInt8} {ending : Option IoError}
    (collects : Collects n (piece, c, m) answer c') (fits : piece.Fits payload ending n)
    (steady : c.Steady (payload.drop piece.bytes.length) ending) (sound : m.delivery.Sound)
    (asked : 0 < n) :
    answer = chunkOf ending payload n ∧ c'.Steady (payload.drop n) ending := by
  generalize once : (piece, c, m) = result at collects
  induction collects generalizing piece c m payload with
  | ended =>
      cases once
      obtain ⟨-, -, ended⟩ := fits
      obtain ⟨rfl, rfl⟩ := ended rfl
      rw [List.drop_nil] at steady ⊢
      rw [chunkOf_none, List.take_nil]
      exact ⟨rfl, steady⟩
  | failed =>
      cases once
      obtain ⟨rfl, rfl⟩ := fits
      refine ⟨(if_neg (Nat.not_le.2 asked)).symm, ?_⟩
      rw [List.drop_nil] at steady ⊢
      exact steady
  | again rest ih =>
      cases once
      exact ih (steady.fits sound asked) (steady.read sound asked) (sound_read sound _) asked rfl
  | full some_came fills =>
      cases once
      obtain ⟨-, ⟨later, rfl⟩, -⟩ := fits
      subst fills
      rw [← map_chunkOf (Nat.le_refl _), Nat.sub_self]
      exact ⟨congrArg Except.ok (List.append_nil _).symm, steady⟩
  | more some_came short rest ih =>
      cases once
      obtain ⟨-, ⟨later, rfl⟩, -⟩ := fits
      have within := Nat.le_of_lt short
      have asked' := Nat.sub_pos_of_lt short
      simp only [Piece.bytes, List.drop_left] at steady
      obtain ⟨rfl, steady'⟩ := ih (steady.fits sound asked') (steady.read sound asked')
        (sound_read sound _) asked' rfl
      rw [← map_chunkOf within, List.drop_append, List.drop_of_length_le within, List.nil_append]
      exact ⟨rfl, steady'⟩

/-- For an empty buffer nothing is read. -/
theorem readChunk_zero (m : Medium) (c : Cursor) : c.readChunk m 0 = (.ok [], c, m) := by
  cases c with
  | stored handle limit =>
      have nothing : m.fill handle 0 = ([], none, handle, m) := by
        have filled : m.delivery.fill handle.available 0 = (0, none, m.delivery) := by
          rw [Delivery.fill]
          rfl
        simp only [Medium.fill, filled, Handle.upcoming_zero]
        rfl
      simp only [readChunk, Nat.zero_min, nothing]
      rfl
  | deflated handle limit inflater => rfl

/-- A chunk of a steady cursor is told by the bytes that are to come. -/
theorem readChunk_of_steady {c : Cursor} {m : Medium} {payload : List UInt8}
    {ending : Option IoError} (sane : c.Sane) (steady : c.Steady payload ending)
    (sound : m.delivery.Sound) (n : Nat) :
    ∃ c' m', c.readChunk m n = (chunkOf ending payload n, c', m') ∧ m'.delivery.Sound ∧
      c'.Sane ∧ c'.Steady (payload.drop n) ending := by
  obtain ⟨d, kept, reads⟩ := reads_readChunk m c n
  have sane' := sane_readChunk m sane n
  have told : (c.readChunk m n).1 = chunkOf ending payload n ∧
      (c.readChunk m n).2.1.Steady (payload.drop n) ending := by
    rcases Nat.eq_zero_or_pos n with rfl | asked
    · rw [readChunk_zero]
      exact ⟨rfl, steady⟩
    · exact (collects_readChunk sound sane asked).answer_eq (steady.fits sound asked)
        (steady.read sound asked) (sound_read sound n) asked
  generalize c.readChunk m n = result at reads sane' told
  obtain ⟨answer, c', m'⟩ := result
  obtain ⟨rfl, steady'⟩ := told
  subst reads
  exact ⟨c', _, rfl, kept sound, sane', steady'⟩

theorem readChunks_of_steady {c : Cursor} {m : Medium} {payload : List UInt8}
    {ending : Option IoError} (sane : c.Sane) (steady : c.Steady payload ending)
    (sound : m.delivery.Sound) (sizes : List Nat) :
    (c.readChunks m sizes).1 = deal ending payload sizes := by
  induction sizes generalizing c m payload with
  | nil => rfl
  | cons size sizes ih =>
      obtain ⟨c', m', read, sound', sane', steady'⟩ := readChunk_of_steady sane steady sound size
      simp only [readChunks, read, deal, ih sane' steady' sound']

/-! ### Stored data -/

theorem readChunk_stored {m : Medium} (sound : m.delivery.Sound) (handle : Handle)
    (limit n : Nat) :
    ∃ delivery : Delivery, delivery.Sound ∧
      (stored handle limit).readChunk m n =
        (.ok ((handle.upcoming limit).take n),
          stored (handle.advance (min (min n limit) handle.available))
            (limit - min (min n limit) handle.available),
          { m with delivery }) := by
  obtain ⟨d, sound', filled⟩ := Medium.fill_of_sound sound handle (min n limit)
  refine ⟨d, sound', ?_⟩
  simp only [readChunk, filled, Medium.length_upcoming, Handle.upcoming_take]

theorem steady_stored (handle : Handle) (limit : Nat) :
    (stored handle limit).Steady (handle.upcoming limit) none := by
  apply steady_of_invariant fun c rest =>
    ∃ handle limit, c = stored handle limit ∧ handle.upcoming limit = rest
  case kept => exact ⟨handle, limit, rfl, rfl⟩
  case step =>
    rintro _ _ m n ⟨handle, limit, rfl, rfl⟩ sound asked
    rcases read_stored_of_sound sound handle limit n with
      ⟨d, -, -, once⟩ | ⟨k, d, -, -, within, none_left, once⟩
    · rw [once]
      exact ⟨trivial, handle, limit, rfl, rfl⟩
    · have length : (handle.upcoming k).length = k := by
        rw [Medium.length_upcoming]
        omega
      have split : handle.upcoming limit =
          handle.upcoming k ++ (handle.advance k).upcoming (limit - k) := by
        rw [← Handle.upcoming_add, Nat.add_sub_cancel' (by omega)]
      rw [once]
      refine ⟨⟨?_, ?_, ?_⟩, _, _, rfl, ?_⟩
      · omega
      · exact ⟨_, split.symm⟩
      · intro nothing
        refine ⟨?_, rfl⟩
        apply List.eq_nil_of_length_eq_zero
        rw [nothing] at length
        have ended := none_left length.symm
        rw [Medium.length_upcoming]
        omega
      · change _ = (handle.upcoming limit).drop (handle.upcoming k).length
        rw [split, List.drop_left]

/-! ### Compressed data -/

namespace Inflow

variable {f f' : Inflow} {m m' : Medium} {n : Nat}

/-- What a single read does with data that is not damaged: it takes the beginning of what is left,
and none only at the end, or fails where more was to come and nothing has been left. -/
inductive Serves (f : Inflow) (n : Nat) : Piece × Inflow × Medium → Prop where
  | brought {bytes : List UInt8} {next : Inflow} {m' : Medium}
      (hands : f.Hands bytes.length bytes next) (bound : bytes.length ≤ n)
      (ended : bytes = [] → f.outcome.2 = .finished ∧ f.remainder = []) :
      Serves f n (.brought bytes, next, m')
  | interrupted {next : Inflow} {m' : Medium} (hands : f.Hands 0 [] next) :
      Serves f n (.interrupted, next, m')
  | failed {next : Inflow} {m' : Medium} (hands : f.Hands 0 [] next)
      (starved : f.outcome.2 = .starved) (none_left : f.remainder = []) :
      Serves f n (.failed .incompleteDeflate, next, m')

theorem Serves.after {answer : Piece × Inflow × Medium} (before : f.Hands 0 [] f')
    (serves : f'.Serves n answer) : f.Serves n answer := by
  have outcome := before.outcome
  have remainder : f'.remainder = f.remainder := before.remainder
  cases serves with
  | brought hands bound ended =>
      rw [outcome, remainder] at ended
      exact .brought (before.after hands) bound ended
  | interrupted hands => exact .interrupted (before.after hands)
  | failed hands starved none_left =>
      rw [outcome] at starved
      rw [remainder] at none_left
      exact .failed (before.after hands) starved none_left

/-- Decoding that has starved with nothing to come and nothing waiting fails. -/
theorem serves_incomplete (sane : f.inflater.Sane) (starved : f.inflater.step.stop? = some .starved)
    (none_waits : f.inflater.waiting = 0) (spent : f.Spent) :
    f.Serves n (.failed .incompleteDeflate, f.forget, m) := by
  have ends : f.outcome = (f.inflater.decoded, .starved) := by
    rw [outcome, spent, Deflate.Inflater.feed_nil]
    exact Deflate.Inflater.outcome_of_stop starved
  have none_left : f.remainder = [] := by
    rw [remainder, ends]
    apply List.eq_nil_of_length_eq_zero
    rw [length_waiting sane, none_waits]
  have same : f.forget = f := by
    unfold forget
    rw [← none_waits]
  rw [same]
  exact .failed (.refl sane) (congrArg Prod.snd ends) none_left

/-- What is delivered of the bytes that wait. -/
theorem serves_deliver (sane : f.inflater.Sane)
    (ended : min n f.inflater.waiting = 0 → f.outcome.2 = .finished ∧ f.remainder = []) :
    f.Serves n (.brought (f.deliver n).1, (f.deliver n).2, m) := by
  have hands := hands_deliver sane n
  have length := length_deliver sane n
  rw [← length] at hands ended
  apply Serves.brought hands
  case bound => exact length ▸ Nat.min_le_left _ _
  case ended => exact fun nothing => ended (congrArg List.length nothing)

theorem serves_decode (sane : f.inflater.Sane) (intact : f.outcome.2 ≠ .corrupt)
    (sound : m.delivery.Sound) (asked : 0 < n) {atEnd : Bool} (spent : atEnd = true → f.Spent) :
    f.Serves n (f.decode m n atEnd) := by
  induction left : f.limit using Nat.strongRecOn generalizing m f atEnd with
  | _ limit ih =>
      obtain ⟨reaches, stops⟩ := Deflate.Inflater.reaches_run sane n
      rw [decode_eq]
      generalize f.inflater.run n = ran at reaches stops
      obtain ⟨inflater, stop⟩ := ran
      have decoded := hands_decode sane reaches
      have intact' : ({ f with inflater } : Inflow).outcome.2 ≠ .corrupt := by
        rw [decoded.outcome]
        exact intact
      apply Serves.after decoded
      cases stop with
      | enough =>
          have enough : n ≤ inflater.waiting := stops
          exact serves_deliver decoded.sane (fun nothing => absurd nothing (by simp only; omega))
      | finished =>
          apply serves_deliver decoded.sane
          intro nothing
          have all := length_of_finished decoded.sane stops
          have ends := Deflate.Inflater.outcome_feed_of_stop stops nofun (f.handle.upcoming f.limit)
          refine ⟨congrArg Prod.snd ends, List.eq_nil_of_length_eq_zero ?_⟩
          omega
      | corrupt =>
          have ends := Deflate.Inflater.outcome_feed_of_stop stops nofun (f.handle.upcoming f.limit)
          exact absurd (congrArg Prod.snd ends) intact'
      | starved =>
          simp only
          by_cases waits : inflater.waiting ≠ 0
          · rw [if_pos waits]
            exact serves_deliver decoded.sane (fun nothing => absurd nothing (by simp only; omega))
          · have none_waits : inflater.waiting = 0 := Classical.not_not.1 waits
            rw [if_neg waits]
            cases atEnd with
            | true => exact serves_incomplete decoded.sane stops none_waits (spent rfl)
            | false =>
                simp only [Bool.false_eq_true, if_false]
                have once := ({ f with inflater } : Inflow).fetchedOnce sound
                generalize fetched : ({ f with inflater } : Inflow).fetchOnce m = result at once
                cases once with
                | interrupted => exact .interrupted (.refl decoded.sane)
                | spent _ nothing => exact serves_incomplete decoded.sane stops none_waits nothing
                | came sound' _ _ whole =>
                    have shorter := limit_fetchOnce fetched
                    have came := hands_fetch decoded.sane whole
                    apply Serves.after came
                    refine ih _ (left ▸ shorter) came.sane ?_ sound' nofun rfl
                    rw [came.outcome]
                    exact intact'

theorem serves_readOnce (sane : f.inflater.Sane) (intact : f.outcome.2 ≠ .corrupt)
    (sound : m.delivery.Sound) (asked : 0 < n) : f.Serves n (f.readOnce m n) := by
  unfold readOnce
  split
  · have once := f.fetchedOnce sound
    generalize f.fetchOnce m = result at once
    cases once with
    | interrupted => exact .interrupted (.refl sane)
    | spent sound' nothing => exact serves_decode sane intact sound' asked (fun _ => nothing)
    | came sound' _ _ whole =>
        have came := hands_fetch sane whole
        exact .after came
          (serves_decode came.sane (came.outcome ▸ intact) sound' asked nofun)
  · exact serves_decode sane intact sound asked nofun

end Inflow

/-- What stands at the end of compressed data. -/
def endingOf : Deflate.Stop → Option IoError
  | .finished => none
  | .corrupt => some .corruptDeflate
  | .starved | .enough => some .incompleteDeflate

/-- Compressed data that is not damaged, whether or not it is whole, is steady. -/
theorem Inflow.steady_of_intact {f : Inflow} (sane : f.inflater.Sane)
    (intact : f.outcome.2 ≠ .corrupt) :
    f.cursor.Steady f.remainder (endingOf f.outcome.2) := by
  apply steady_of_invariant fun c rest => ∃ g : Inflow, c = g.cursor ∧ g.inflater.Sane ∧
    g.outcome = f.outcome ∧ g.remainder = rest
  case kept => exact ⟨f, rfl, sane, rfl, rfl⟩
  case step =>
    rintro _ _ m n ⟨g, rfl, sane, outcome, rfl⟩ sound asked
    rw [← outcome] at intact ⊢
    have serves := serves_readOnce sane intact sound asked
    change (g.readOnce m n).1.Fits _ _ n ∧
      ∃ next : Inflow, (g.readOnce m n).2.1.cursor = next.cursor ∧ next.inflater.Sane ∧
        next.outcome = g.outcome ∧
        next.remainder = g.remainder.drop (g.readOnce m n).1.bytes.length
    generalize g.readOnce m n = answer at serves
    cases serves with
    | brought hands bound ended =>
        refine ⟨⟨bound, ?_, ?_⟩, _, rfl, hands.sane, hands.outcome, hands.remainder⟩
        · rw [hands.bytes]
          exact List.take_prefix _ _
        · intro nothing
          obtain ⟨finished, none_left⟩ := ended nothing
          exact ⟨none_left, congrArg endingOf finished⟩
    | interrupted hands =>
        exact ⟨trivial, _, rfl, hands.sane, hands.outcome, hands.remainder⟩
    | failed hands starved none_left =>
        exact ⟨⟨none_left, congrArg endingOf starved⟩, _, rfl, hands.sane, hands.outcome,
          hands.remainder⟩

/-! ### Chunks of all sizes -/

/-- The bytes in the answers. -/
def broughtIn (answers : List (Except IoError (List UInt8))) : List UInt8 :=
  answers.flatMap fun
    | .ok bytes => bytes
    | .error _ => []

/-- The answers to chunks of some sizes where `payload` is to come, and then the end or a failure.
A piece is as long as its buffer unless the payload ends with it, and empty only if nothing is
left.  Where the end is a failure, that is the answer when what is left does not fill a buffer. -/
structure Apportioned (payload : List UInt8) (ending : Option IoError) (sizes : List Nat)
    (answers : List (Except IoError (List UInt8))) : Prop where
  count : answers.length = sizes.length
  full : ∀ (i size : Nat) (piece : List UInt8), sizes[i]? = some size →
    answers[i]? = some (.ok piece) → piece.length = size ∨
      piece.length < size ∧ ending = none ∧ broughtIn (answers.take (i + 1)) = payload
  empty : ∀ i size : Nat, sizes[i]? = some size → 0 < size → answers[i]? = some (.ok []) →
    ending = none ∧ broughtIn (answers.take i) = payload
  failed : ∀ (i : Nat) (cause : IoError), answers[i]? = some (.error cause) →
    ending = some cause ∧ payload.length < (sizes.take (i + 1)).sum
  beginning : broughtIn answers <+: payload

theorem chunkOf_eq_ok {ending : Option IoError} {payload piece : List UInt8} {n : Nat}
    (given : chunkOf ending payload n = .ok piece) :
    piece = payload.take n ∧ (n ≤ payload.length ∨ payload.length < n ∧ ending = none) := by
  unfold chunkOf at given
  split at given
  · rename_i fills
    cases given
    exact ⟨rfl, .inl fills⟩
  · rename_i beyond
    have short := Nat.lt_of_not_le beyond
    split at given <;> cases given
    exact ⟨(List.take_of_length_le (Nat.le_of_lt short)).symm, .inr ⟨short, rfl⟩⟩

theorem chunkOf_eq_error {ending : Option IoError} {payload : List UInt8} {n : Nat}
    {cause : IoError} (failed : chunkOf ending payload n = .error cause) :
    ending = some cause ∧ payload.length < n := by
  unfold chunkOf at failed
  split at failed
  · cases failed
  · rename_i beyond
    split at failed <;> cases failed
    exact ⟨rfl, Nat.lt_of_not_le beyond⟩

theorem broughtIn_cons (bytes : List UInt8) (answers : List (Except IoError (List UInt8))) :
    broughtIn (.ok bytes :: answers) = bytes ++ broughtIn answers := rfl

section Apportioned

variable {payload : List UInt8} {ending : Option IoError} {size : Nat} {sizes : List Nat}
  {answers : List (Except IoError (List UInt8))}

/-- Where the data comes to its end, nothing of it is lost. -/
theorem broughtIn_chunkOf (ends : ending = none) (rest : broughtIn answers = payload.drop size) :
    broughtIn (chunkOf ending payload size :: answers) = payload := by
  rw [ends, chunkOf_none, broughtIn_cons, rest, List.take_append_drop]

theorem Apportioned.cons (behind : Apportioned (payload.drop size) ending sizes answers) :
    Apportioned payload ending (size :: sizes) (chunkOf ending payload size :: answers) := by
  constructor
  case count => exact congrArg Nat.succ behind.count
  case full =>
    intro i wanted piece asked answered
    cases i with
    | zero =>
        cases asked
        obtain ⟨rfl, fills | ⟨short, ends⟩⟩ := chunkOf_eq_ok (Option.some.inj answered)
        · exact .inl (List.length_take_of_le fills)
        · have nothing_behind := List.drop_of_length_le (Nat.le_of_lt short)
          refine .inr ⟨?_, ends, broughtIn_chunkOf ends nothing_behind.symm⟩
          rw [List.length_take]
          omega
    | succ i =>
        rcases behind.full i wanted piece asked answered with filled | ⟨short, ends, rest⟩
        · exact .inl filled
        · exact .inr ⟨short, ends, broughtIn_chunkOf ends rest⟩
  case empty =>
    intro i wanted asked some_wanted answered
    cases i with
    | zero =>
        cases asked
        obtain ⟨nothing, fills | ⟨-, ends⟩⟩ := chunkOf_eq_ok (Option.some.inj answered)
        · have length := List.length_take_of_le fills
          rw [← nothing] at length
          exact absurd length (Nat.ne_of_lt some_wanted)
        · rcases List.take_eq_nil_iff.1 nothing.symm with none_wanted | none_left
          · exact absurd none_wanted (Nat.ne_of_gt some_wanted)
          · exact ⟨ends, none_left.symm⟩
    | succ i =>
        obtain ⟨ends, rest⟩ := behind.empty i wanted asked some_wanted answered
        exact ⟨ends, broughtIn_chunkOf ends rest⟩
  case failed =>
    intro i cause answered
    cases i with
    | zero => exact chunkOf_eq_error (Option.some.inj answered)
    | succ i =>
        obtain ⟨ends, short⟩ := behind.failed i cause answered
        refine ⟨ends, ?_⟩
        rw [List.length_drop] at short
        rw [List.take_succ_cons, List.sum_cons]
        omega
  case beginning =>
    obtain ⟨later, rest⟩ := behind.beginning
    cases given : chunkOf ending payload size with
    | ok piece =>
        obtain ⟨rfl, -⟩ := chunkOf_eq_ok given
        refine ⟨later, ?_⟩
        rw [broughtIn_cons, List.append_assoc, rest, List.take_append_drop]
    | error cause =>
        -- What did not fill the buffer is lost, and nothing comes behind it.
        obtain ⟨-, short⟩ := chunkOf_eq_error given
        rw [List.drop_of_length_le (Nat.le_of_lt short)] at rest
        obtain ⟨none_came, -⟩ := List.append_eq_nil_iff.1 rest
        have lost : broughtIn (.error cause :: answers) = [] := none_came
        rw [lost]
        exact List.nil_prefix

end Apportioned

theorem apportioned_deal (ending : Option IoError) (payload : List UInt8) (sizes : List Nat) :
    Apportioned payload ending sizes (deal ending payload sizes) := by
  induction sizes generalizing payload with
  | nil => exact ⟨rfl, nofun, nofun, nofun, List.nil_prefix⟩
  | cons size sizes ih => exact (ih (payload.drop size)).cons

/-- The answers are the next bytes of stored data, and the cursor, and the count that it shows,
has moved on by as many. -/
structure Advances (handle : Handle) (limit : Nat) (sizes : List Nat)
    (answers : List (Except IoError (List UInt8))) (c : Cursor) : Prop where
  bytes : broughtIn answers = (handle.upcoming limit).take sizes.sum
  count : (broughtIn answers).length = min sizes.sum (min limit handle.available)
  place : c = stored (handle.advance (broughtIn answers).length)
    (limit - (broughtIn answers).length)
  shown : c.describe = "Stored(" ++ toString (limit - (broughtIn answers).length) ++ ")"

section Advances

variable {handle : Handle} {limit : Nat} {sizes : List Nat}
  {answers : List (Except IoError (List UInt8))} {c : Cursor}

theorem Advances.of_bytes (bytes : broughtIn answers = (handle.upcoming limit).take sizes.sum)
    (place : c = stored (handle.advance (broughtIn answers).length)
      (limit - (broughtIn answers).length)) : Advances handle limit sizes answers c := by
  refine ⟨bytes, ?_, place, ?_⟩
  · rw [bytes, List.length_take, Medium.length_upcoming]
  · rw [place]
    rfl

theorem Advances.cons {piece : List UInt8} {size : Nat}
    (first : piece = (handle.upcoming limit).take size)
    (behind : Advances (handle.advance piece.length) (limit - piece.length) sizes answers c) :
    Advances handle limit (size :: sizes) (.ok piece :: answers) c := by
  have length : piece.length = min (min size limit) handle.available := by
    rw [first, List.length_take, Medium.length_upcoming, Nat.min_assoc]
  have rest : (handle.upcoming limit).drop size =
      (handle.advance piece.length).upcoming (limit - piece.length) := by
    rw [length]
    exact handle.upcoming_drop limit size
  apply Advances.of_bytes
  case bytes =>
    rw [broughtIn_cons, behind.bytes, ← rest, List.sum_cons, List.take_add, ← first]
  case place =>
    rw [behind.place, broughtIn_cons, List.length_append, Nat.sub_add_eq]
    simp only [Handle.advance, Nat.add_assoc]

end Advances

theorem advances_readChunks {m : Medium} (sound : m.delivery.Sound) (handle : Handle)
    (limit : Nat) (sizes : List Nat) :
    Advances handle limit sizes ((stored handle limit).readChunks m sizes).1
      ((stored handle limit).readChunks m sizes).2.1 := by
  induction sizes generalizing m handle limit with
  | nil => exact .of_bytes List.take_zero.symm rfl
  | cons size sizes ih =>
      obtain ⟨d, sound', read⟩ := readChunk_stored sound handle limit size
      have length : ((handle.upcoming limit).take size).length =
          min (min size limit) handle.available := by
        rw [List.length_take, Medium.length_upcoming, Nat.min_assoc]
      rw [← length] at read
      simp only [readChunks, read]
      exact .cons rfl (ih (m := { m with delivery := d }) sound' _ _)

/-! ### Fragmentation -/

/-- The bytes that come of a cursor and what stands at their end.  Of compressed data that is what
the inflater gives, if it gives certain bytes however its input is cut. -/
inductive Pours : Cursor → List UInt8 → Option IoError → Prop where
  | stored (handle : Handle) (limit : Nat) :
      Pours (.stored handle limit) (handle.upcoming limit) none
  | deflated {f : Inflow} {payload : List UInt8} {ending : Option IoError}
      (sane : f.inflater.Sane) (steady : f.cursor.Steady payload ending) :
      Pours f.cursor payload ending

theorem Pours.sane {c : Cursor} {payload : List UInt8} {ending : Option IoError}
    (pours : c.Pours payload ending) : c.Sane := by
  cases pours with
  | stored handle limit => trivial
  | deflated sane _ => exact sane

theorem Pours.steady {c : Cursor} {payload : List UInt8} {ending : Option IoError}
    (pours : c.Pours payload ending) : c.Steady payload ending := by
  cases pours with
  | stored handle limit => exact steady_stored handle limit
  | deflated _ steady => exact steady

/-- The failure that stands behind what is left, if one does. -/
def fault? : Cursor → Option IoError
  | stored _ _ => none
  | deflated handle limit inflater => endingOf (Inflow.outcome { handle, limit, inflater }).2

/-- Decoding what is left comes to no failure of the data.  The data may be cut short. -/
def Intact : Cursor → Prop
  | stored _ _ => True
  | deflated handle limit inflater =>
      (Inflow.outcome { handle, limit, inflater }).2 ≠ Deflate.Stop.corrupt

theorem pours_of_intact {c : Cursor} (sane : c.Sane) (intact : c.Intact) :
    c.Pours c.remainder c.fault? := by
  cases c with
  | stored handle limit => exact .stored handle limit
  | deflated handle limit inflater =>
      have decodes : ({ handle, limit, inflater } : Inflow).inflater.Sane := sane
      exact .deflated decodes (Inflow.steady_of_intact decodes intact)

/-- Every cursor that is opened pours what its data stands for, unless that is damaged. -/
theorem pours_of_openAt {m m' : Medium} {h : Handle} {path : String} {span : PayloadSpan}
    {c : Cursor} (opened : openAt m h path span = (.ok c, m')) (intact : c.Intact) :
    c.Pours c.remainder c.fault? :=
  pours_of_intact (sane_openAt opened) intact

/-- Chunks of any sizes are the same from every medium of which no read fails, however it cuts its
reads and however often it interrupts them: they are the bytes to come, cut by the sizes, up to the
end or the failure that stands there.  Of stored data they are the next bytes, and the cursor moves
on by just as many. -/
theorem readChunks_ignores_fragments {c : Cursor} {payload : List UInt8} {ending : Option IoError}
    {m m' : Medium} (pours : c.Pours payload ending) (sound : m.delivery.Sound)
    (sound' : m'.delivery.Sound) (sizes : List Nat) :
    (c.readChunks m sizes).1 = (c.readChunks m' sizes).1 ∧
    (c.readChunks m sizes).1 = deal ending payload sizes ∧
    Apportioned payload ending sizes (c.readChunks m sizes).1 ∧
    ∀ handle limit, c = stored handle limit →
      Advances handle limit sizes (c.readChunks m sizes).1 (c.readChunks m sizes).2.1 := by
  have dealt := readChunks_of_steady pours.sane pours.steady sound sizes
  have dealt' := readChunks_of_steady pours.sane pours.steady sound' sizes
  refine ⟨dealt.trans dealt'.symm, dealt, ?_, ?_⟩
  · rw [dealt]
    exact apportioned_deal ending payload sizes
  · rintro handle limit rfl
    exact advances_readChunks sound handle limit sizes

/-- Behind a header, a stored block that announces five bytes and has three. -/
def truncatedBlock : Content := #[
  0x50, 0x4B, 0x03, 0x04, 0, 0, 0, 0, 0x08, 0, 0, 0, 0, 0, 0, 0, 0, 0, 0, 0, 0, 0, 0, 0, 0, 0, 0, 0,
  0, 0, 0x01, 0x05, 0x00, 0xFA, 0xFF, 0x61, 0x62, 0x63]

def truncatedSpan : PayloadSpan where
  headerStart := 0
  compressedSize := 8
  method := .deflated
  isEncrypted := false

def truncatedInflow : Inflow where
  handle := { content := truncatedBlock, position := 30 }
  limit := 8
  inflater := {}

/-- The block is opened behind its header. -/
theorem openAt_truncatedSpan : ∃ m', openAt (Medium.ofContent truncatedBlock)
    { content := truncatedBlock } "p" truncatedSpan = (.ok truncatedInflow.cursor, m') := by
  have readable : truncatedSpan.Readable := ⟨rfl, .inr rfl⟩
  obtain ⟨d, opened⟩ := openAt_of_readable (Medium.faultless_ofContent truncatedBlock).sound rfl
    { content := truncatedBlock } "p" readable
  have whole : (truncatedSpan.header truncatedBlock).length = 30 := by decide
  have signed : fieldAt (truncatedSpan.header truncatedBlock) 0 4 = Zip.localSignature := by decide
  rw [if_pos whole, if_pos signed] at opened
  exact ⟨_, opened⟩

/-- Each read brings one byte, and some are interrupted. -/
def haltingMedium : Medium where
  content := .ok truncatedBlock
  delivery := { fates := [.interrupted, .atMost 0, .interrupted], extraAtMost := some 0 }

theorem sound_haltingMedium : haltingMedium.delivery.Sound := by
  refine ⟨rfl, ?_⟩
  intro cause planned
  simp [haltingMedium] at planned

/-- The three bytes of a truncated block come, and then a failure. -/
theorem pours_truncatedInflow :
    truncatedInflow.cursor.Pours [0x61, 0x62, 0x63] (some .incompleteDeflate) := by
  have ends : truncatedInflow.outcome = ([0x61, 0x62, 0x63], .starved) := by decide +kernel
  have left : truncatedInflow.cursor.remainder = [0x61, 0x62, 0x63] := by
    change truncatedInflow.remainder = _
    rw [Inflow.remainder, ends]
    rfl
  have fault : truncatedInflow.cursor.fault? = some .incompleteDeflate := by
    change endingOf truncatedInflow.outcome.2 = _
    rw [ends]
    rfl
  have intact : truncatedInflow.cursor.Intact := by
    intro damaged
    rw [ends] at damaged
    cases damaged
  obtain ⟨m', opened⟩ := openAt_truncatedSpan
  rw [← left, ← fault]
  exact pours_of_openAt opened intact

/-- Of the truncated block, which is opened behind its header, the byte that does not fill its
buffer is lost. -/
theorem readChunks_of_truncatedInflow :
    (∃ m', openAt (Medium.ofContent truncatedBlock) { content := truncatedBlock } "p"
      truncatedSpan = (.ok truncatedInflow.cursor, m')) ∧
    truncatedInflow.cursor.Pours [0x61, 0x62, 0x63] (some .incompleteDeflate) ∧
    (Medium.ofContent truncatedBlock).delivery.Sound ∧ haltingMedium.delivery.Sound ∧
    (truncatedInflow.cursor.readChunks (Medium.ofContent truncatedBlock) [2, 0, 4, 1]).1 =
      (truncatedInflow.cursor.readChunks haltingMedium [2, 0, 4, 1]).1 ∧
    (truncatedInflow.cursor.readChunks (Medium.ofContent truncatedBlock) [2, 0, 4, 1]).1 =
      [.ok [0x61, 0x62], .ok [], .error .incompleteDeflate, .error .incompleteDeflate] := by
  have sound := (Medium.faultless_ofContent truncatedBlock).sound
  obtain ⟨same, dealt, -, -⟩ :=
    readChunks_ignores_fragments pours_truncatedInflow sound sound_haltingMedium [2, 0, 4, 1]
  exact ⟨openAt_truncatedSpan, pours_truncatedInflow, sound, sound_haltingMedium, same, dealt⟩

end BackupRestore.Cursor
