/-
Module: BackupRestore.Proofs.Spelling
Purpose: A name spells one key at most, and a key has one name up to padding.
Main exports: KeyName.symbolAt_eq_ok, KeyName.readLast_eq_ok, KeyName.closeLast_eq_ok,
  KeyName.decodeBytes_eq_ok_iff, KeyName.decode_eq_ok_iff,
  Layout.names_spell_keys_exactly
-/
import BackupRestore.Proofs.KeyNames

namespace BackupRestore

/-!
Each step of reading a name is turned around: what it accepts has been written from the numbers it
gives back.  A last group whose spare bits are not zero, padding that completes nothing, a symbol
alone and a character outside of the alphabet leave no key from which they could have come, so a
name that is read at all is the name of its key, padding apart.
-/

namespace Text

/-- Two texts of the same bytes are one. -/
theorem utf8Bytes_injective {first second : String} (same : utf8Bytes first = utf8Bytes second) :
    first = second := by
  have bytes : first.toList.utf8Encode = second.toList.utf8Encode :=
    congrArg List.toByteArray same
  rw [← String.toByteArray_inj, ← String.ofList_toList (s := first),
    ← String.ofList_toList (s := second), String.toByteArray_ofList, String.toByteArray_ofList,
    bytes]

theorem utf8Bytes_append (first second : String) :
    utf8Bytes (first ++ second) = utf8Bytes first ++ utf8Bytes second := by
  rw [utf8Bytes, String.toList_append, List.flatMap_append]
  rfl

end Text

namespace KeyName

/-! ### What has been read -/

/-- Both steps of a reading that gives a value have given one. -/
theorem bind_eq_ok {α β : Type} {first : Except Fault α} {next : α → Except Fault β} {b : β}
    (read : (first >>= next) = .ok b) : ∃ a, first = .ok a ∧ next a = .ok b := by
  cases first with
  | error fault => cases read
  | ok a => exact ⟨a, rfl, read⟩

/-- No two bytes have one value. -/
theorem sextet?_injective {first second : UInt8} {bits : Nat} (one : sextet? first = some bits)
    (other : sextet? second = some bits) : first = second := by
  apply UInt8.toNat_inj.1
  simp only [sextet?] at one other
  grind

/-- A byte that has a value is the symbol of it. -/
theorem sextet?_eq_some {byte : UInt8} {bits : Nat} (read : sextet? byte = some bits) :
    byte = symbolByte bits ∧ bits < 64 := by
  have small : bits < 64 := by
    simp only [sextet?] at read
    grind
  exact ⟨sextet?_injective read (sextet?_symbolByte small).1, small⟩

theorem symbolAt_eq_ok {position : Nat} {byte : UInt8} {bits : Nat}
    (read : symbolAt position byte = .ok bits) : byte = symbolByte bits ∧ bits < 64 := by
  unfold symbolAt at read
  cases here : sextet? byte with
  | none =>
      rw [here] at read
      cases read
  | some value =>
      rw [here] at read
      cases read
      exact sextet?_eq_some here

/-- Behind padding nothing but padding is read. -/
theorem readLast_padded {start : Nat} {group last : LastGroup} {bytes : List UInt8}
    (some_padding : 0 < group.padded) (read : readLast start group bytes = .ok last) :
    bytes = List.replicate bytes.length padding ∧ last.values = group.values := by
  induction bytes generalizing group with
  | nil =>
      cases read
      exact ⟨rfl, rfl⟩
  | cons byte bytes ih =>
      rw [readLast, if_pos some_padding] at read
      split at read
      · rename_i pads
        split at read
        · cases read
        · obtain ⟨rest, same⟩ := ih (Nat.succ_pos _) read
          rw [List.length_cons, List.replicate_succ, ← rest, pads]
          exact ⟨rfl, same⟩
      · cases read

/-- The last group is symbols, with padding only behind two of them. -/
theorem readLast_eq_ok {start : Nat} {final : UInt8} {before : List Nat} {last : LastGroup}
    {bytes : List UInt8}
    (read : readLast start { values := before, final, padded := 0 } bytes = .ok last) :
    ∃ values padded, last.values = before ++ values ∧ (∀ bits ∈ values, bits < 64) ∧
      bytes = values.map symbolByte ++ List.replicate padded padding ∧
      (0 < padded → 2 ≤ last.values.length) := by
  induction bytes generalizing final before with
  | nil =>
      cases read
      exact ⟨[], 0, by simp⟩
  | cons byte bytes ih =>
      rw [readLast] at read
      split at read
      · rename_i pads
        split at read
        · cases read
        · rename_i enough
          obtain ⟨rest, same⟩ := readLast_padded (Nat.succ_pos 0) read
          refine ⟨[], bytes.length + 1, by simpa using same, by simp, ?_, fun _ => ?_⟩
          · rw [List.map_nil, List.nil_append, List.replicate_succ, ← rest, pads]
          · rw [same]
            exact Nat.not_lt.1 enough
      · rw [if_neg (Nat.lt_irrefl 0)] at read
        cases here : sextet? byte with
        | none =>
            rw [here] at read
            cases read
        | some bits =>
            rw [here] at read
            obtain ⟨spelled, small⟩ := sextet?_eq_some here
            obtain ⟨values, padded, given, smalls, rest, enough⟩ := ih read
            refine ⟨bits :: values, padded, ?_, ?_, ?_, enough⟩
            · rw [given, List.append_assoc, List.singleton_append]
            · exact List.forall_mem_cons.2 ⟨small, smalls⟩
            · rw [rest, spelled, List.map_cons, List.cons_append]

/-- The bytes of four numbers are made of these. -/
theorem sextets_of_group {p q r s : Nat} (small : ∀ bits ∈ [p, q, r, s], bits < 64)
    (rest : List UInt8) :
    let n := ((p * 64 + q) * 64 + r) * 64 + s
    sextets (UInt8.ofNat (n / 65536) :: UInt8.ofNat (n / 256 % 256) :: UInt8.ofNat (n % 256) ::
      rest) = p :: q :: r :: s :: sextets rest := by
  intro n
  simp only [List.mem_cons, List.not_mem_nil, or_false, forall_eq_or_imp, forall_eq] at small
  have high : n / 65536 % 256 = n / 65536 := Nat.mod_eq_of_lt (by omega)
  simp only [sextets, UInt8.toNat_ofNat', Nat.reducePow, high, Nat.mod_mod, List.cons.injEq,
    and_true]
  omega

/-- A last group that is read has been made of one to three bytes. -/
theorem closeLast_eq_ok {start : Nat} {group : LastGroup} {key : List UInt8}
    (small : ∀ bits ∈ group.values, bits < 64) (read : closeLast start group = .ok key) :
    group.values = sextets key ∧ key ≠ [] ∧ key.length ≤ 3 := by
  obtain ⟨values, final, padded⟩ := group
  unfold closeLast at read
  split at read
  · rename_i p q r s same
    cases read
    cases same
    exact ⟨(sextets_of_group small []).symm, List.cons_ne_nil _ _, Nat.le_refl 3⟩
  · rename_i p q r same
    split at read
    · rename_i spare
      cases read
      cases same
      simp only [List.mem_cons, List.not_mem_nil, or_false, forall_eq_or_imp, forall_eq] at small
      have high : ((p * 64 + q) * 64 + r) / 4 / 256 % 256 = ((p * 64 + q) * 64 + r) / 4 / 256 :=
        Nat.mod_eq_of_lt (by omega)
      refine ⟨?_, List.cons_ne_nil _ _, by simp⟩
      simp only [sextets, UInt8.toNat_ofNat', Nat.reducePow, high, Nat.mod_mod, List.cons.injEq,
        and_true]
      omega
    · cases read
  · rename_i p q same
    split at read
    · rename_i spare
      cases read
      cases same
      simp only [List.mem_cons, List.not_mem_nil, or_false, forall_eq_or_imp, forall_eq] at small
      have high : (p * 64 + q) / 16 % 256 = (p * 64 + q) / 16 := Nat.mod_eq_of_lt (by omega)
      refine ⟨?_, List.cons_ne_nil _ _, by simp⟩
      simp only [sextets, UInt8.toNat_ofNat', Nat.reducePow, high, List.cons.injEq, and_true]
      omega
    · cases read
  · cases read

/-- What is read as a key has been written from its numbers. -/
theorem decodeFrom_eq_ok {start : Nat} {bytes key : List UInt8}
    (read : decodeFrom start bytes = .ok key) :
    ∃ padded ≤ missing (sextets key).length,
      bytes = (sextets key).map symbolByte ++ List.replicate padded padding := by
  -- along the groups of four that have more behind them; what is left is a last group
  induction start, bytes using decodeFrom.induct generalizing key with
  | case1 start a b c d next rest ih =>
      rw [decodeFrom] at read
      obtain ⟨p, first, read⟩ := bind_eq_ok read
      obtain ⟨q, second, read⟩ := bind_eq_ok read
      obtain ⟨r, third, read⟩ := bind_eq_ok read
      obtain ⟨s, fourth, read⟩ := bind_eq_ok read
      obtain ⟨tail, later, read⟩ := bind_eq_ok read
      obtain ⟨padded, fits, more⟩ := ih later
      cases read
      obtain ⟨rfl, small_p⟩ := symbolAt_eq_ok first
      obtain ⟨rfl, small_q⟩ := symbolAt_eq_ok second
      obtain ⟨rfl, small_r⟩ := symbolAt_eq_ok third
      obtain ⟨rfl, small_s⟩ := symbolAt_eq_ok fourth
      have small : ∀ bits ∈ [p, q, r, s], bits < 64 := by
        simp only [List.mem_cons, List.not_mem_nil, or_false, forall_eq_or_imp, forall_eq]
        exact ⟨small_p, small_q, small_r, small_s⟩
      refine ⟨padded, ?_, ?_⟩
      · rw [sextets_of_group small]
        simp only [List.length_cons, missing_add_four]
        exact fits
      · rw [sextets_of_group small, more]
        rfl
  | case2 start =>
      cases read
      exact ⟨0, Nat.zero_le _, rfl⟩
  | case3 start bytes no_more some_bytes =>
      have few : bytes.length ≤ 4 := by
        rcases bytes with _ | ⟨a, _ | ⟨b, _ | ⟨c, _ | ⟨d, _ | ⟨next, rest⟩⟩⟩⟩⟩
        case cons.cons.cons.cons.cons => exact (no_more a b c d next rest rfl).elim
        all_goals simp
      rw [decodeFrom_of_few start some_bytes few] at read
      obtain ⟨group, read, close⟩ := bind_eq_ok read
      obtain ⟨values, padded, given, small, spelled, enough⟩ := readLast_eq_ok read
      rw [List.nil_append] at given
      rw [← given] at small spelled
      obtain ⟨of_key, some_key, few_key⟩ := closeLast_eq_ok small close
      have counted := length_sextets_of_few some_key few_key
      have := List.length_pos_iff.2 some_key
      refine ⟨padded, ?_, of_key ▸ spelled⟩
      rw [spelled, of_key, List.length_append, List.length_map, List.length_replicate] at few
      unfold missing
      omega

/-- The keys and the bytes from which they are read. -/
theorem decodeBytes_eq_ok_iff {bytes key : List UInt8} :
    decodeBytes bytes = .ok key ↔ ∃ padded ≤ missing (sextets key).length,
      bytes = (sextets key).map symbolByte ++ List.replicate padded padding := by
  constructor
  · intro read
    unfold decodeBytes at read
    split at read
    · cases read
    · exact decodeFrom_eq_ok read
  · rintro ⟨padded, fits, rfl⟩
    exact decodeBytes_sextets key fits

/-! ### Names -/

/-- So many signs of padding. -/
def filling (padded : Nat) : String := String.ofList (List.replicate padded '=')

theorem utf8Bytes_filling (padded : Nat) :
    Text.utf8Bytes (filling padded) = List.replicate padded padding := by
  rw [Text.utf8Bytes, filling, String.toList_ofList]
  induction padded with
  | zero => rfl
  | succ padded ih =>
      rw [List.replicate_succ, List.flatMap_cons, ih]
      rfl

theorem length_encode (key : List UInt8) : (encode key).length = (sextets key).length := by
  rw [encode, String.length_ofList, encodeChars_eq, List.length_map]

/-- A name that spells a key is the key's own name, with padding that completes it in part or in
full. -/
theorem decode_eq_ok_iff {name : String} {key : List UInt8} :
    decode name = .ok key ↔
      ∃ padded ≤ missing (encode key).length, name = encode key ++ filling padded := by
  have of_bytes : decode name = .ok key ↔ decodeBytes (Text.utf8Bytes name) = .ok key := by
    unfold decode
    cases decodeBytes (Text.utf8Bytes name) with
    | error fault => simp
    | ok read => simp
  rw [of_bytes, decodeBytes_eq_ok_iff, length_encode]
  have spelled : ∀ padded, Text.utf8Bytes (encode key ++ filling padded) =
      (sextets key).map symbolByte ++ List.replicate padded padding := by
    intro padded
    rw [Text.utf8Bytes_append, utf8Bytes_encode, utf8Bytes_filling]
  constructor
  · rintro ⟨padded, fits, bytes⟩
    exact ⟨padded, fits, Text.utf8Bytes_injective (bytes.trans (spelled padded).symm)⟩
  · rintro ⟨padded, fits, rfl⟩
    exact ⟨padded, fits, spelled padded⟩

/-- What does not spell a key is refused for it. -/
theorem decode_cases (name : String) :
    (∃ key, decode name = .ok key) ∨ ∃ reason, decode name = .error (.keyDecode name reason) := by
  unfold decode
  cases decodeBytes (Text.utf8Bytes name) with
  | ok key => exact .inl ⟨key, rfl⟩
  | error fault => exact .inr ⟨fault.message, rfl⟩

/-- Two names of one key are the same up to padding. -/
theorem eq_up_to_filling {first second : String} {key : List UInt8}
    (one : decode first = .ok key) (other : decode second = .ok key) :
    ∃ stem padded padded', first = stem ++ filling padded ∧ second = stem ++ filling padded' := by
  obtain ⟨padded, -, spelled⟩ := decode_eq_ok_iff.1 one
  obtain ⟨padded', -, spelled'⟩ := decode_eq_ok_iff.1 other
  exact ⟨encode key, padded, padded', spelled, spelled'⟩

end KeyName

namespace Layout

/-- Names and keys: a key's name has symbols only, stands last in the path of its record, and is
read from there as the key.  What is read as a key is its name, and behind it no more padding than
completes a group of four; any other text is refused as a name; so no two keys share a name, and
the names of one key differ in padding alone. -/
theorem names_spell_keys_exactly (layout : Layout) (package : String) :
    (∀ key,
      (∀ c ∈ (KeyName.encode key).toList, c.isAlphanum = true ∨ c = '-' ∨ c = '_') ∧
      (layout.recordsOf package).toList <+:
        (layout.recordPath package (KeyName.encode key)).toList ∧
      lastSegment (layout.recordPath package (KeyName.encode key)) = KeyName.encode key ∧
      KeyName.decode (lastSegment (layout.recordPath package (KeyName.encode key))) = .ok key) ∧
    (∀ name key, KeyName.decode name = .ok key ↔
      ∃ padded ≤ KeyName.missing (KeyName.encode key).length,
        name = KeyName.encode key ++ KeyName.filling padded) ∧
    (∀ name, (∃ key, KeyName.decode name = .ok key) ∨
      ∃ reason, KeyName.decode name = .error (.keyDecode name reason)) ∧
    (∀ first second key,
      KeyName.decode first = .ok key → KeyName.decode second = .ok key →
        ∃ stem padded padded',
          first = stem ++ KeyName.filling padded ∧ second = stem ++ KeyName.filling padded') := by
  refine ⟨fun key => ⟨?symbols, ?under, ?last, ?read⟩, ?exactly, ?refused, ?alike⟩
  case symbols =>
    intro c member
    rw [KeyName.encode, String.toList_ofList] at member
    exact KeyName.mem_encodeChars member
  case under =>
    rw [toList_recordPath]
    apply List.prefix_append
  case last => apply lastSegment_recordPath
  case read =>
    rw [lastSegment_recordPath]
    apply KeyName.decode_encode
  case exactly =>
    intro name key
    apply KeyName.decode_eq_ok_iff
  case refused => apply KeyName.decode_cases
  case alike =>
    intro first second key
    apply KeyName.eq_up_to_filling

/-- One byte has three names: two symbols, with up to two signs of padding behind them. -/
theorem names_spell_keys_exactly_of_byte :
    KeyName.decode "_w" = .ok [255] ∧ KeyName.decode "_w==" = .ok [255] ∧
      ∃ stem padded padded', "_w" = stem ++ KeyName.filling padded ∧
        "_w==" = stem ++ KeyName.filling padded' := by
  have laws := names_spell_keys_exactly { incrementalDir := "kv/", fullDir := "full/" } "app"
  have plain : KeyName.decode "_w" = .ok [255] := (laws.2.1 _ _).2 ⟨0, by decide, by decide⟩
  have padded : KeyName.decode "_w==" = .ok [255] := (laws.2.1 _ _).2 ⟨2, by decide, by decide⟩
  exact ⟨plain, padded, laws.2.2.2 _ _ _ plain padded⟩

end Layout
end BackupRestore
