/-
Module: BackupRestore.Proofs.Payloads
Purpose: The bytes for which an entry's data stands, and when reading the entry whole gives them.
Main exports: Archive.decodeWhole_of_supported, Zip.Entry.payload, Zip.Entry.Gives,
  Archive.reads_readEntry, Archive.gives_of_readEntry, Archive.readEntry_of_gives
-/
import BackupRestore.Proofs.Lookup

namespace BackupRestore

/-!
An entry that is read whole may be compressed by a method whose decoder is not known here
(`Zip.Codecs`).  Everything about such entries is said of any decoders: whatever they make of
the data is the payload, and the directory's checksum decides whether it is given out.  Of data
that can also be read piece by piece, the payload is the same with all decoders.
-/

theorem Zip.Method.isSupported_iff {method : Zip.Method} :
    method.isSupported = true ↔ method = .stored ∨ method = .deflated := by
  simp only [isSupported, Bool.or_eq_true, beq_iff_eq]

variable [Zip.Codecs]

/-- Data that can be read piece by piece is decoded without the decoders of other methods, and
without regard to the size that the directory records. -/
theorem Archive.decodeWhole_of_supported {method : Zip.Method}
    (supported : method.isSupported = true) (size : Nat) (data : List UInt8) :
    decodeWhole method size data = (decode method data).mapError .io := by
  rw [decodeWhole, if_pos supported]

/-- Data that can be read piece by piece stands for the same bytes with all decoders. -/
theorem Archive.decodeWhole_eq_ok_iff {method : Zip.Method} (supported : method.isSupported = true)
    {size : Nat} {data bytes : List UInt8} :
    decodeWhole method size data = .ok bytes ↔ decode method data = .ok bytes := by
  rw [decodeWhole_of_supported supported]
  cases decode method data with
  | error cause => exact ⟨nofun, nofun⟩
  | ok decoded =>
      constructor
      · rintro ⟨⟩
        rfl
      · rintro ⟨⟩
        rfl

/-- The bytes for which an entry's data stands. -/
def Zip.Entry.payload (e : Zip.Entry) (c : Content) (reach : Option Nat) :
    Except RestoreError (List UInt8) :=
  match e.dataStart c reach with
  | .error cause => .error (.archive cause)
  | .ok start =>
      Archive.decodeWhole e.method e.uncompressedSize (c.slice start (start + e.compressedSize))

/-- An entry whose data stands for something can be visited. -/
theorem Zip.Entry.payload_eq_ok {e : Zip.Entry} {c : Content} {reach : Option Nat}
    {bytes : List UInt8} (stands : e.payload c reach = .ok bytes) :
    ∃ start, e.dataStart c reach = .ok start ∧
      Archive.decodeWhole e.method e.uncompressedSize
        (c.slice start (start + e.compressedSize)) = .ok bytes := by
  unfold payload at stands
  split at stands
  · cases stands
  · rename_i start begins
    exact ⟨start, begins, stands⟩

/-- The payload of an entry that can be read piece by piece. -/
theorem Zip.Entry.payload_eq_ok_of_supported {e : Zip.Entry} {c : Content} {reach : Option Nat}
    {bytes : List UInt8} (supported : e.method.isSupported = true)
    (stands : e.payload c reach = .ok bytes) :
    ∃ start, e.dataStart c reach = .ok start ∧
      Archive.decode e.method (c.slice start (start + e.compressedSize)) = .ok bytes := by
  obtain ⟨start, begins, decoded⟩ := payload_eq_ok stands
  exact ⟨start, begins, (Archive.decodeWhole_eq_ok_iff supported).1 decoded⟩

/-- The entry's data can be read whole, passes its checks, and is `value`. -/
structure Zip.Entry.Gives (e : Zip.Entry) (c : Content) (reach : Option Nat)
    (value : List UInt8) : Prop where
  plain : e.isEncrypted = false
  unnoted : e.hasCipherNote = false
  named : e.method.name?.isNone = false
  stands : e.payload c reach = .ok value
  checksum : crc32 value = e.checksum

namespace Archive

/-! ### Reading an entry whole on any medium -/

theorem reads_readData (m : Medium) (e : Zip.Entry) (handle : Handle) :
    m.ReadsTo (readData m e handle).2 := by
  have filled := m.reads_fill handle e.compressedSize
  unfold readData
  split
  · rename_i eq
    rwa [eq] at filled
  · rename_i eq
    rw [eq] at filled
    split
    · exact filled
    · split <;> exact filled

theorem reads_readEntry (a : Archive) (m : Medium) (index : Nat) :
    m.ReadsTo (a.readEntry m index).2 := by
  unfold readEntry
  split
  · exact .refl m
  · rename_i e _
    split
    · exact .refl m
    · have visited := a.reads_visit m e
      split
      · rename_i eq
        rwa [eq] at visited
      · rename_i handle m₁ eq
        rw [eq] at visited
        repeat' split
        · exact visited
        · exact visited
        · exact visited.trans (reads_readData m₁ e handle)

/-- Data that has been read whole is what the entry's bytes stand for, and fits the checksum. -/
theorem readData_eq_ok {m m' : Medium} {e : Zip.Entry} {handle : Handle} {value : List UInt8}
    (read : readData m e handle = (.ok value, m')) :
    decodeWhole e.method e.uncompressedSize (handle.upcoming e.compressedSize) = .ok value ∧
      crc32 value = e.checksum := by
  unfold readData at read
  split at read
  · cases read
  · rename_i data after m₁ filled
    obtain ⟨rfl, -⟩ := Medium.fill_of_none filled
    split at read
    · cases read
    · rename_i bytes decoded
      split at read
      · rename_i fits
        cases read
        exact ⟨decoded, fits⟩
      · cases read

variable {a : Archive} {m : Medium} {index : Nat} {e : Zip.Entry} {value : List UInt8}

/-- Whatever is read from an entry, it gives. -/
theorem gives_of_readEntry {m' : Medium} (here : a.directory.entries[index]? = some e)
    (read : a.readEntry m index = (.ok value, m')) : e.Gives a.handle.content m.reach value := by
  unfold readEntry at read
  rw [here] at read
  simp only at read
  split at read
  · cases read
  · rename_i plain
    split at read
    · cases read
    · rename_i handle m₁ visited
      obtain ⟨start, begins, rfl⟩ := visit_eq_ok visited
      split at read
      · cases read
      · rename_i named
        split at read
        · cases read
        · rename_i unnoted
          obtain ⟨decoded, fits⟩ := readData_eq_ok read
          have slice : (a.handle.moveTo start).upcoming e.compressedSize =
              a.handle.content.slice start (start + e.compressedSize) := rfl
          rw [slice] at decoded
          refine ⟨eq_false_of_ne_true plain, eq_false_of_ne_true unnoted,
            eq_false_of_ne_true named, ?_, fits⟩
          simp only [Zip.Entry.payload, begins, decoded]

/-! ### Reading an entry whole where no read fails -/

/-- Where no read fails, an entry gives what it can. -/
theorem readEntry_of_gives (sound : m.delivery.Sound)
    (here : a.directory.entries[index]? = some e) (gives : e.Gives a.handle.content m.reach value) :
    ∃ delivery : Delivery, delivery.Sound ∧
      a.readEntry m index = (.ok value, { m with delivery }) := by
  obtain ⟨start, begins, decoded⟩ := Zip.Entry.payload_eq_ok gives.stands
  obtain ⟨d, sound', visited⟩ := visit_of_sound sound a e
  obtain ⟨d', sound'', filled⟩ := Medium.fill_of_sound (m := { m with delivery := d }) sound'
    (a.handle.moveTo start) e.compressedSize
  have slice : (a.handle.moveTo start).upcoming e.compressedSize =
      a.handle.content.slice start (start + e.compressedSize) := rfl
  refine ⟨d', sound'', ?_⟩
  simp only [readEntry, here, gives.plain, visited, begins, Except.map, gives.named,
    gives.unnoted, readData, filled, slice, decoded, gives.checksum, Bool.false_eq_true, if_false,
    if_true]

end Archive

/-! ### The payloads of the sample archive -/

namespace Sample

set_option maxRecDepth 4000

theorem payload_stream : stream.payload content none = .ok [100, 97, 116, 97] := by
  simp only [Zip.Entry.payload, dataStart_entries.1]
  rfl

theorem payload_record : record.payload content none = .ok [118] := by
  simp only [Zip.Entry.payload, dataStart_entries.2]
  rfl

theorem gives_stream : stream.Gives content none [100, 97, 116, 97] :=
  ⟨rfl, rfl, rfl, payload_stream, by decide +kernel⟩

theorem gives_record : record.Gives content none [118] :=
  ⟨rfl, rfl, rfl, payload_record, by decide⟩

end Sample

end BackupRestore
