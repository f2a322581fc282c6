/-
Module: BackupRestore.Proofs.WholeReads
Purpose: Reading an entry piece by piece gives what reading it whole has given.
Main exports: Cursor.readChunks, Cursor.CutInto, Cursor.readChunks_of_holds,
  Archive.intoCursor_agrees_with_readEntry
-/
import Mathlib.Algebra.GroupWithZero.Nat
import BackupRestore.Proofs.Chunks
import BackupRestore.Proofs.Records

namespace BackupRestore

/-!
There are two ways to the data of an entry that is stored or deflated.  One reads it whole through
the archive's handle.  The other gives up the archive, goes by itself from the directory's place
over the header to the data, and reads that in pieces.  Both find the beginning of the data by the
same header (`Zip.Entry.dataStart`) and decode the same bytes, so whatever the one has given, the
other gives in pieces, of whatever sizes.  The buffers may differ from call to call.
-/

namespace Cursor

/-- Read chunks of some sizes, one after the other. -/
def readChunks (c : Cursor) (m : Medium) :
    List Nat → List (Except IoError (List UInt8)) × Cursor × Medium
  | [] => ([], c, m)
  | size :: sizes =>
      match c.readChunk m size with
      | (answer, c, m) =>
          match c.readChunks m sizes with
          | (answers, c, m) => (answer :: answers, c, m)

/-- The answers are consecutive pieces of `bytes`, one for each buffer.  A piece fills its buffer,
as far as `bytes` reaches, and where nothing is left there is nothing in it. -/
structure CutInto (bytes : List UInt8) (sizes : List Nat)
    (answers : List (Except IoError (List UInt8))) : Prop where
  length : answers.length = sizes.length
  piece : ∀ (i size : Nat), sizes[i]? = some size →
    answers[i]? = some (.ok ((bytes.drop (sizes.take i).sum).take size))

/-- Pieces behind the first are cut from what the first has left. -/
theorem CutInto.cons {bytes : List UInt8} {size : Nat} {sizes : List Nat}
    {answers : List (Except IoError (List UInt8))}
    (behind : CutInto (bytes.drop size) sizes answers) :
    CutInto bytes (size :: sizes) (.ok (bytes.take size) :: answers) := by
  refine ⟨congrArg _ behind.length, ?_⟩
  intro i wanted asked
  cases i with
  | zero =>
      cases asked
      rfl
  | succ i =>
      have later := behind.piece i wanted asked
      rw [List.drop_drop] at later
      rw [List.take_succ_cons, List.sum_cons]
      exact later

/-- A cursor gives what it holds in pieces, whatever their sizes are. -/
theorem readChunks_of_holds {c : Cursor} {rest : List UInt8} {m : Medium} (holds : c.Holds rest)
    (sound : m.delivery.Sound) (sizes : List Nat) :
    CutInto rest sizes (c.readChunks m sizes).1 := by
  induction sizes generalizing c rest m with
  | nil => exact ⟨rfl, nofun⟩
  | cons size sizes ih =>
      obtain ⟨next, m₁, read, reads, behind⟩ := readChunk_of_sound holds sound size
      obtain ⟨d, kept, rfl⟩ := reads
      simp only [readChunks, read]
      exact (ih behind (kept sound)).cons

end Cursor

namespace Archive

/-- Let a stored or deflated entry of an archive have been read whole, however its medium behaved.
Where no open and no read fails, the archive can be opened anew and a cursor over the same entry be
opened through the fresh handle, and reading from that into buffers of any sizes gives the same
bytes in pieces. -/
theorem intoCursor_agrees_with_readEntry [Zip.Codecs] {m₀ m₁ m m' fresh : Medium} {a : Archive}
    {found : Located} {e : Zip.Entry} {bytes : List UInt8} (opened : openOn m₀ = (.ok a, m₁))
    (here : a.directory.entries[found.index]? = some e)
    (method : e.method = .stored ∨ e.method = .deflated) (within : m.reach = m₀.reach)
    (read : a.readEntry m found.index = (.ok bytes, m'))
    (faultless : fresh.Faultless a.handle.content) (reach : fresh.reach = m₀.reach) :
    ∃ cursor m₂ m₃, openOn fresh = (.ok a, m₂) ∧ a.intoCursor m₂ found = (.ok cursor, m₃) ∧
      ∀ sizes, Cursor.CutInto bytes sizes (cursor.readChunks m₃ sizes).1 := by
  -- What was read is what the bytes of the archive have at this entry.
  have gives := gives_of_readEntry here read
  have beginning := handle_of_openOn opened
  obtain ⟨-, listed, -⟩ := openOn_eq_ok opened
  obtain ⟨m₂, faultless₂, reach₂, -, reopened⟩ := openOn_of_faultless faultless
  have same : openOn fresh = (.ok a, m₂) := by
    rw [reopened, listed]
    simp only [← beginning]
  have stands : e.payload a.handle.content m₂.reach = .ok bytes := by
    rw [reach₂, reach, ← within]
    exact gives.stands
  obtain ⟨cursor, m₃, into, reads, holds⟩ :=
    intoCursor_of_sound faultless₂.sound here gives.plain
      (Zip.Method.isSupported_iff.2 method) stands
  refine ⟨cursor, m₂, m₃, same, into, ?_⟩
  have sound : m₃.delivery.Sound := by
    obtain ⟨d, kept, rfl⟩ := reads
    exact kept faultless₂.sound
  exact Cursor.readChunks_of_holds holds sound

/-- The stream of the sample archive is read whole as `data`, and so it is read in pieces. -/
theorem intoCursor_agrees_with_readEntry_of_sample :
    (Medium.ofContent Sample.content).Faultless Sample.content ∧
    ∃ m₁ m', openOn (Medium.ofContent Sample.content) = (.ok Sample.archive, m₁) ∧
      Sample.archive.directory.entries[0]? = some Sample.stream ∧
      (Sample.stream.method = .stored ∨ Sample.stream.method = .deflated) ∧
      Sample.archive.readEntry (Medium.ofContent Sample.content) 0 =
        (.ok [100, 97, 116, 97], m') ∧
      ∃ cursor m₂ m₃, openOn (Medium.ofContent Sample.content) = (.ok Sample.archive, m₂) ∧
        Sample.archive.intoCursor m₂ { index := 0, name := "full/p" } = (.ok cursor, m₃) ∧
        ∀ sizes, Cursor.CutInto [100, 97, 116, 97] sizes (cursor.readChunks m₃ sizes).1 := by
  have faultless := Medium.faultless_ofContent Sample.content
  obtain ⟨m₁, opened⟩ := Sample.openOn_content
  obtain ⟨d, -, read⟩ : ∃ delivery : Delivery, delivery.Sound ∧
      Sample.archive.readEntry (Medium.ofContent Sample.content) 0 =
        (.ok [100, 97, 116, 97], { Medium.ofContent Sample.content with delivery }) :=
    readEntry_of_gives faultless.sound rfl Sample.gives_stream
  exact ⟨faultless, m₁, _, opened, rfl, Or.inl rfl, read,
    intoCursor_agrees_with_readEntry opened rfl (Or.inl rfl) rfl read faultless rfl⟩

end Archive
end BackupRestore
