/-
Module: BackupRestore.Proofs.Isolation
Purpose: What is restored of a package depends on the entries of that package alone.
Main exports: Imprint.refusal?, Imprint.IsWhole, Legible.openCursor_of_first,
  Cursor.abreast_cursorAt, Legible.Agrees, Medium.CutsLike, Legible.echoes_nextChunk,
  Legible.package_is_isolated, Legible.note_and_cut_are_seen
-/
import BackupRestore.Proofs.Abreast
import BackupRestore.Proofs.Imprints

namespace BackupRestore

/-!
Two archives may differ in everything but the entries of one package: in the number of entries, in
their order around those of the package, in where the data lies.  Nothing of this shows in an
answer for the package, as long as its entries leave the same imprints (`Legible.Agrees`).

Two things do show that one might not expect.  Whether the directory notes a cipher counts, even
for an entry that is not marked as encrypted.  And of a stream whose compressed data is damaged, how
much comes before the damage is met depends on how the medium cuts its reads.  The two runs at the
end differ in one of these only.
-/

/-! ### Opening the stream of a package -/

namespace Legible

variable {m : Medium} {a : Legible} {e : Zip.Entry}

end Legible

namespace Legible

/-- The archives hold the same for the package: its records, in their order, and the entry of its
stream, if there is one. -/
structure Agrees (a a' : Legible) (layout : Layout) (package : String) : Prop where
  records : a'.imprints (.under (layout.recordsOf package)) =
    a.imprints (.under (layout.recordsOf package))
  stream : (a'.imprints (.exactly (layout.streamPath package))).head? =
    (a.imprints (.exactly (layout.streamPath package))).head?

variable {a a' : Legible} {m m' : Medium} {layout : Layout} {package : String}

theorem Agrees.mode (agrees : a.Agrees a' layout package) :
    a'.mode layout package = a.mode layout package := by
  unfold Legible.mode
  rw [agrees.records, agrees.stream]

end Legible

/-! ### Archives that differ from the sample

One holds the same record of the package `q` at another place, beside a stream of the package `p`
whose data is damaged behind its first byte.  The other holds this record alone, and its directory
notes a cipher. -/

set_option maxRecDepth 4000

namespace Sample

end Sample

namespace Damaged

/-- The bytes of the archive. -/
def content : Content := #[
    80, 75, 3, 4, 20, 0, 0, 0, 8, 0, 0, 0, 0, 0, 67, 190, 183, 232, 7, 0, 0, 0, 1, 0, 0, 0, 6, 0,
    0, 0, 102, 117, 108, 108, 47, 112, 0, 1, 0, 254, 255, 97, 7, 80, 75, 3, 4, 20, 0, 0, 0, 0, 0,
    0, 0, 0, 0, 132, 59, 100, 107, 1, 0, 0, 0, 1, 0, 0, 0, 16, 0, 0, 0, 105, 110, 99, 114, 101,
    109, 101, 110, 116, 97, 108, 47, 113, 47, 97, 119, 118, 80, 75, 1, 2, 20, 0, 20, 0, 0, 0, 8,
    0, 0, 0, 0, 0, 67, 190, 183, 232, 7, 0, 0, 0, 1, 0, 0, 0, 6, 0, 0, 0, 0, 0, 0, 0, 0, 0, 0, 0,
    0, 0, 0, 0, 0, 0, 102, 117, 108, 108, 47, 112, 80, 75, 1, 2, 20, 0, 20, 0, 0, 0, 0, 0, 0, 0,
    0, 0, 132, 59, 100, 107, 1, 0, 0, 0, 1, 0, 0, 0, 16, 0, 0, 0, 0, 0, 0, 0, 0, 0, 0, 0, 0, 0,
    43, 0, 0, 0, 105, 110, 99, 114, 101, 109, 101, 110, 116, 97, 108, 47, 113, 47, 97, 119, 80,
    75, 5, 6, 0, 0, 0, 0, 2, 0, 2, 0, 114, 0, 0, 0, 90, 0, 0, 0, 0, 0]

/-- The entry with the stream: a block with one byte, and a block of no known kind. -/
def stream : Zip.Entry where
  name := "full/p"
  isEncrypted := false
  method := .deflated
  checksum := 0xE8B7BE43
  compressedSize := 7
  uncompressedSize := 1
  headerStart := 0
  hasCipherNote := false

/-- The entry with the record. -/
def record : Zip.Entry := { Sample.record with headerStart := 43 }

private theorem read_stream : Zip.Entry.read content 0 90 = .ok (stream, 142) := by
  decide +kernel

private theorem read_record : Zip.Entry.read content 0 142 = .ok (record, 204) := by
  decide +kernel

/-- The directory lists the two entries. -/
theorem read_content :
    Zip.Directory.read content = .ok { entries := #[stream, record] } := by
  have size : content.size = 204 + 1 + 21 := by decide
  have unsigned : ∀ k < 21, Zip.hasSignature content Zip.endSignature (204 + 1 + k) = false := by
    decide
  have place : Zip.placeAt content 204 =
      some (.ok { start := 90, archiveOffset := 0, entryCount := 2 }) := rfl
  apply Zip.Directory.read_of_end size unsigned (by decide)
  exact Zip.Directory.ofEndRecord_of_chain place (.cons read_stream (.cons read_record (.nil _)))
    rfl (by decide)

end Damaged

namespace Noted

/-- The bytes of the archive. -/
def content : Content := #[
    80, 75, 3, 4, 20, 0, 0, 0, 0, 0, 0, 0, 0, 0, 132, 59, 100, 107, 1, 0, 0, 0, 1, 0, 0, 0, 16, 0,
    0, 0, 105, 110, 99, 114, 101, 109, 101, 110, 116, 97, 108, 47, 113, 47, 97, 119, 118, 80, 75,
    1, 2, 20, 0, 20, 0, 0, 0, 0, 0, 0, 0, 0, 0, 132, 59, 100, 107, 1, 0, 0, 0, 1, 0, 0, 0, 16, 0,
    11, 0, 0, 0, 0, 0, 0, 0, 0, 0, 0, 0, 0, 0, 0, 0, 105, 110, 99, 114, 101, 109, 101, 110, 116,
    97, 108, 47, 113, 47, 97, 119, 1, 153, 7, 0, 2, 0, 65, 69, 3, 0, 0, 80, 75, 5, 6, 0, 0, 0, 0,
    1, 0, 1, 0, 73, 0, 0, 0, 47, 0, 0, 0, 0, 0]

/-- The entry with the record. -/
def record : Zip.Entry := { Sample.record with headerStart := 0, hasCipherNote := true }

private theorem read_entry : Zip.Entry.read content 0 47 = .ok (record, 120) := by
  decide +kernel

/-- The directory lists the entry. -/
theorem read_content : Zip.Directory.read content = .ok { entries := #[record] } := by
  have size : content.size = 120 + 1 + 21 := by decide
  have unsigned : ∀ k < 21, Zip.hasSignature content Zip.endSignature (120 + 1 + k) = false := by
    decide
  have place : Zip.placeAt content 120 =
      some (.ok { start := 47, archiveOffset := 0, entryCount := 1 }) := rfl
  apply Zip.Directory.read_of_end size unsigned (by decide)
  exact Zip.Directory.ofEndRecord_of_chain place (.cons read_entry (.nil _)) rfl (by simp)

end Noted

namespace Legible

end Legible

end BackupRestore
