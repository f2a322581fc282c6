/-
Module: BackupRestore.Payload
Purpose: The data of one entry, read piece by piece through a handle of its own.
Main exports: PayloadSpan, Cursor, Cursor.openAt, Cursor.readChunk, Cursor.potential,
  Archive.intoCursor
-/
import BackupRestore.Archive

namespace BackupRestore

/-- Where an entry's data is, and how it is written. -/
structure PayloadSpan where
  headerStart : Nat
  compressedSize : Nat
  method : Zip.Method
  isEncrypted : Bool
deriving Repr, Inhabited, DecidableEq

/-- A place in the data of an entry. -/
inductive Cursor where
  /-- The data is written as it is, with `limit` bytes to go. -/
  | stored (handle : Handle) (limit : Nat)
  /-- The data is compressed, with `limit` compressed bytes still to be read. -/
  | deflated (handle : Handle) (limit : Nat) (inflater : Deflate.Inflater)

namespace Cursor

/-- The cursor as it is shown: the bytes that have not been read. -/
def describe : Cursor → String
  | stored _ limit => "Stored(" ++ toString limit ++ ")"
  | deflated _ limit _ => "Deflated(" ++ toString limit ++ ")"

/-- Move a handle to the data of an entry.  The handle is given back if the data
cannot be read piece by piece. -/
def openAt (m : Medium) (h : Handle) (path : String) (span : PayloadSpan) :
    Except RestoreError Cursor × Medium :=
  if span.isEncrypted then (.error (.encryptedEntry path), m.release)
  else if !span.method.isSupported then
    (.error (.unsupportedCompression path span.method.name), m.release)
  else
    match m.seek h span.headerStart with
    | .error cause => (.error (.io cause), m.release)
    | .ok h =>
        match m.readExactly h Zip.localHeaderLength with
        | (.error cause, _, m) => (.error (.io cause), m.release)
        | (.ok header, _, m) =>
            if fieldAt header 0 4 ≠ Zip.localSignature then
              (.error (.io (.badLocalHeader path)), m.release)
            else
              let start := span.headerStart + Zip.localHeaderLength + Zip.localTail header
              match m.seek h start with
              | .error cause => (.error (.io cause), m.release)
              | .ok handle =>
                  if span.method = .stored then (.ok (stored handle span.compressedSize), m)
                  else (.ok (deflated handle span.compressedSize {}), m)

/-- How many compressed bytes are read at once. -/
def fetchSize : Nat := 32 * 1024

/-- Compressed data on its way through the inflater. -/
structure Inflow where
  handle : Handle
  limit : Nat
  inflater : Deflate.Inflater

/-- Read more compressed bytes.  Gives how many have come: none at the end. -/
def Inflow.fetch (m : Medium) (f : Inflow) : Except IoError Nat × Inflow × Medium :=
  if f.limit = 0 then (.ok 0, f, m)
  else
    match m.read f.handle (min f.limit fetchSize) with
    | (.error cause, handle, m) => (.error cause, { f with handle }, m)
    | (.ok bytes, handle, m) =>
        (.ok (min bytes.length f.limit),
          { handle, limit := f.limit - bytes.length, inflater := f.inflater.feed bytes }, m)

theorem Inflow.limit_fetch {m m' : Medium} {f f' : Inflow} {n : Nat}
    (h : f.fetch m = (.ok n, f', m')) : f'.limit + n = f.limit := by
  unfold fetch at h
  split at h
  · simp only [Prod.mk.injEq, Except.ok.injEq] at h
    obtain ⟨rfl, rfl, -⟩ := h
    rfl
  · split at h
    · simp at h
    · simp only [Prod.mk.injEq, Except.ok.injEq] at h
      obtain ⟨rfl, rfl, -⟩ := h
      simp only
      omega

/-- What was decoded for a chunk that failed is lost. -/
def Inflow.forget (f : Inflow) : Inflow :=
  { f with inflater := { f.inflater with waiting := 0 } }

/-- No compressed bytes are at hand that have not been taken up. -/
def Inflow.isDry (f : Inflow) : Bool := f.inflater.source.whole.isEmpty

/-- Take the bytes for a chunk of `n` bytes. -/
def Inflow.deliver (f : Inflow) (n : Nat) : List UInt8 × Inflow :=
  let (bytes, inflater) := f.inflater.deliver n
  (bytes, { f with inflater })

/-- Take the bytes for the last chunk, of which `before` had been decoded when
compressed bytes came for the last time.  If there are more than that and they do not
fill the chunk, one more attempt is made.  It finds nothing to decode; but compressed
bytes are at hand before it, as before every other. -/
def Inflow.deliverLast (m : Medium) (f : Inflow) (before n : Nat) :
    Except IoError (List UInt8) × Inflow × Medium :=
  let (bytes, f) := f.deliver n
  if f.isDry && before < bytes.length && bytes.length < n then
    match f.fetch m with
    | (.error cause, f, m) => (.error cause, f.forget, m)
    | (.ok _, f, m) => (.ok bytes, f, m)
  else (.ok bytes, f, m)

/-- Decode until `n` bytes can be delivered or the data ends.  Of the chunk, `before`
bytes have been decoded when this begins. -/
def Inflow.fill (m : Medium) (f : Inflow) (before n : Nat) :
    Except IoError (List UInt8) × Inflow × Medium :=
  let (inflater, stop) := f.inflater.run n
  let f := { f with inflater }
  match stop with
  | .enough =>
      let (bytes, f) := f.deliver n
      (.ok bytes, f, m)
  | .finished => f.deliverLast m before n
  | .corrupt => (.error .corruptDeflate, f.forget, m)
  | .starved =>
      match h : f.fetch m with
      | (.error cause, f, m) => (.error cause, f.forget, m)
      | (.ok 0, f, m) => (.error .incompleteDeflate, f.forget, m)
      | (.ok (k + 1), next, m) =>
          have : next.limit < f.limit := by
            have := Inflow.limit_fetch h
            omega
          next.fill m f.inflater.waiting n
termination_by f.limit

/-- One chunk of decoded bytes.  Compressed bytes are at hand before decoding
begins, as long as there are any. -/
def Inflow.readChunk (m : Medium) (f : Inflow) (n : Nat) :
    Except IoError (List UInt8) × Inflow × Medium :=
  if n = 0 then (.ok [], f, m)
  else if f.isDry then
    match f.fetch m with
    | (.error cause, f, m) => (.error cause, f.forget, m)
    | (.ok _, f, m) => f.fill m 0 n
  else f.fill m 0 n

/-- The next `n` bytes of the data, fewer only at its end.  Bytes that were read
before a failure are lost with it. -/
def readChunk (m : Medium) (c : Cursor) (n : Nat) :
    Except IoError (List UInt8) × Cursor × Medium :=
  match c with
  | stored handle limit =>
      match m.fill handle (min n limit) with
      | (bytes, some cause, handle, m) =>
          (.error cause, stored handle (limit - bytes.length), m)
      | (bytes, none, handle, m) => (.ok bytes, stored handle (limit - bytes.length), m)
  | deflated handle limit inflater =>
      match ({ handle, limit, inflater } : Inflow).readChunk m n with
      | (answer, f, m) => (answer, deflated f.handle f.limit f.inflater, m)

/-- A bound on the bytes that compressed data can still give. -/
def Inflow.potential (f : Inflow) : Nat :=
  f.inflater.potential + Deflate.itemLimit * (8 * f.limit)

theorem Inflow.potential_fetch_le (m : Medium) (f : Inflow) :
    (f.fetch m).2.1.potential ≤ f.potential := by
  unfold fetch
  split
  · exact Nat.le_refl _
  · split
    · exact Nat.le_refl _
    · rename_i bytes handle m₁ hr
      have := Medium.length_read_le hr
      simp only [potential, Deflate.Inflater.potential_feed]
      rw [Nat.add_assoc, ← Nat.mul_add]
      have : 8 * bytes.length + 8 * (f.limit - bytes.length) = 8 * f.limit := by omega
      exact Nat.le_of_eq (by rw [this])

theorem Inflow.potential_deliver (f : Inflow) (n : Nat) :
    (f.deliver n).2.potential + (f.deliver n).1.length ≤ f.potential := by
  have := f.inflater.potential_deliver n
  simp only [deliver, potential]
  omega

theorem Inflow.potential_deliverLast {m m' : Medium} {f f' : Inflow} {before n : Nat}
    {bytes : List UInt8} (h : f.deliverLast m before n = (.ok bytes, f', m')) :
    f'.potential + bytes.length ≤ f.potential := by
  have hdeliver := f.potential_deliver n
  unfold deliverLast at h
  generalize f.deliver n = delivered at h hdeliver
  obtain ⟨got, next⟩ := delivered
  simp only at h
  split at h
  · have hfetch := potential_fetch_le m next
    split at h
    · simp at h
    · rename_i k last m₁ hf
      simp only [Prod.mk.injEq, Except.ok.injEq] at h
      obtain ⟨rfl, rfl, -⟩ := h
      rw [hf] at hfetch
      exact Nat.le_trans (Nat.add_le_add_right hfetch _) hdeliver
  · simp only [Prod.mk.injEq, Except.ok.injEq] at h
    obtain ⟨rfl, rfl, -⟩ := h
    exact hdeliver

theorem Inflow.potential_fill {m m' : Medium} {f f' : Inflow} {before n : Nat}
    {bytes : List UInt8} (h : f.fill m before n = (.ok bytes, f', m')) :
    f'.potential + bytes.length ≤ f.potential := by
  induction hl : f.limit using Nat.strongRecOn generalizing m f before with
  | _ limit ih =>
    have hrun := f.inflater.potential_run n
    rw [Inflow.fill] at h
    generalize f.inflater.run n = ran at h hrun
    obtain ⟨inflater, stop⟩ := ran
    have hnext : ({ f with inflater } : Inflow).potential ≤ f.potential :=
      Nat.add_le_add_right hrun _
    cases stop with
    | enough =>
      have hdeliver := ({ f with inflater } : Inflow).potential_deliver n
      simp only [Prod.mk.injEq, Except.ok.injEq] at h
      obtain ⟨rfl, rfl, -⟩ := h
      exact Nat.le_trans hdeliver hnext
    | finished => exact Nat.le_trans (potential_deliverLast h) hnext
    | corrupt => simp at h
    | starved =>
      simp only at h
      split at h
      · simp at h
      · simp at h
      · rename_i k next m₁ hf
        have hlimit := Inflow.limit_fetch hf
        have hfetch := potential_fetch_le m { f with inflater }
        rw [hf] at hfetch
        have hrest := ih next.limit (by simp only at hlimit; omega) h rfl
        exact Nat.le_trans hrest (Nat.le_trans hfetch hnext)

theorem Inflow.potential_readChunk {m m' : Medium} {f f' : Inflow} {n : Nat}
    {bytes : List UInt8} (h : f.readChunk m n = (.ok bytes, f', m')) :
    f'.potential + bytes.length ≤ f.potential := by
  unfold readChunk at h
  split at h
  · simp only [Prod.mk.injEq, Except.ok.injEq] at h
    obtain ⟨rfl, rfl, -⟩ := h
    simp
  · split at h
    · have hfetch := potential_fetch_le m f
      split at h
      · simp at h
      · rename_i k f₁ m₁ hf
        rw [hf] at hfetch
        exact Nat.le_trans (potential_fill h) hfetch
    · exact potential_fill h

/-- A bound on the bytes that a cursor can still give. -/
def potential : Cursor → Nat
  | stored _ limit => limit
  | deflated handle limit inflater => ({ handle, limit, inflater } : Inflow).potential

/-- Every chunk with something in it uses up what a cursor can still give. -/
theorem potential_readChunk {m m' : Medium} {c c' : Cursor} {n : Nat} {bytes : List UInt8}
    (h : c.readChunk m n = (.ok bytes, c', m')) (hb : bytes ≠ []) :
    c'.potential < c.potential := by
  have hpos : 0 < bytes.length := List.length_pos_iff.2 hb
  cases c with
  | stored handle limit =>
    simp only [readChunk] at h
    split at h
    · simp at h
    · rename_i got handle₁ m₁ hm
      simp only [Prod.mk.injEq, Except.ok.injEq] at h
      obtain ⟨rfl, rfl, -⟩ := h
      have hlimit : limit ≠ 0 := by
        rintro rfl
        have := m.fill_zero handle
        rw [Nat.min_zero] at hm
        rw [hm] at this
        exact hb this
      simp only [potential]
      omega
  | deflated handle limit inflater =>
    simp only [readChunk] at h
    generalize hf : Inflow.readChunk m { handle, limit, inflater } n = answer at h
    obtain ⟨answer, f, m₁⟩ := answer
    simp only [Prod.mk.injEq] at h
    obtain ⟨rfl, rfl, -⟩ := h
    have := Inflow.potential_readChunk hf
    change f.potential < Inflow.potential { handle, limit, inflater }
    omega

end Cursor

namespace Zip.Entry

/-- Where the directory says that the entry's data is. -/
def span (e : Entry) : PayloadSpan where
  headerStart := e.headerStart
  compressedSize := e.compressedSize
  method := e.method
  isEncrypted := e.isEncrypted

end Zip.Entry

namespace Archive

/-- Give up the directory and keep the handle as a cursor over an entry. -/
def intoCursor (a : Archive) (m : Medium) (found : Located) :
    Except RestoreError Cursor × Medium :=
  match a.directory.entries[found.index]? with
  | none => (.error (.archive .fileNotFound), m.release)
  | some e =>
      match a.visit m e with
      | (.error cause, m) => (.error (.archive cause), m.release)
      | (.ok _, m) => Cursor.openAt m a.handle found.name e.span

end Archive

end BackupRestore
