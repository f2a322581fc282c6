/-
Module: BackupRestore.Proofs.KeyNames
Purpose: A key is read back from its name, and from the path of the record under it.
Main exports: KeyName.sextets, KeyName.mem_encodeChars, KeyName.missing,
  KeyName.decodeBytes_sextets, KeyName.decode_encode, Layout.lastSegment_recordPath,
  Layout.getLast?_recordPath
-/
import BackupRestore.KeyName
import BackupRestore.Layout

namespace BackupRestore

/-!
Between a key and its name stand numbers of six bits (`KeyName.sextets`): a name is their symbols,
and a reader turns the symbols into the numbers again before it puts the bytes together.  It passes
over padding that completes the last group (`KeyName.missing`), of which a name itself has none.
No symbol is a separator, so the name is what follows the last separator of a record's path.
-/

namespace KeyName

/-- The numbers of six bits that a key is made of, the last filled up with zeros. -/
def sextets : List UInt8 → List Nat
  | a :: b :: c :: rest =>
      let n := (a.toNat * 256 + b.toNat) * 256 + c.toNat
      n / 262144 :: n / 4096 % 64 :: n / 64 % 64 :: n % 64 :: sextets rest
  | [a, b] =>
      let n := (a.toNat * 256 + b.toNat) * 4
      [n / 4096, n / 64 % 64, n % 64]
  | [a] =>
      let n := a.toNat * 16
      [n / 64, n % 64]
  | [] => []

/-- The byte that a symbol is written as. -/
def symbolByte (bits : Nat) : UInt8 := UInt8.ofNat (symbol bits).toNat

theorem encodeChars_eq (key : List UInt8) : encodeChars key = (sextets key).map symbol := by
  fun_induction sextets key with
  | case1 a b c rest n ih => simp [encodeChars, ih, n]
  | case2 a b n => simp [encodeChars, n]
  | case3 a n => simp [encodeChars, n]
  | case4 => rfl

theorem sextets_lt (key : List UInt8) : ∀ bits ∈ sextets key, bits < 64 := by
  fun_induction sextets key with
  | case1 a b c rest n ih =>
      have := a.toNat_lt
      have := b.toNat_lt
      have := c.toNat_lt
      simp only [List.mem_cons, forall_eq_or_imp]
      refine ⟨by omega, by omega, by omega, by omega, ih⟩
  | case2 a b n =>
      have := a.toNat_lt
      have := b.toNat_lt
      simp only [List.mem_cons, List.not_mem_nil, or_false, forall_eq_or_imp, forall_eq]
      refine ⟨by omega, by omega, by omega⟩
  | case3 a n =>
      have := a.toNat_lt
      simp only [List.mem_cons, List.not_mem_nil, or_false, forall_eq_or_imp, forall_eq]
      refine ⟨by omega, by omega⟩
  | case4 => simp

/-- No name has a single symbol behind its groups of four. -/
theorem length_sextets (key : List UInt8) : (sextets key).length % 4 ≠ 1 := by
  fun_induction sextets key with
  | case1 a b c rest n ih =>
      simp only [List.length_cons]
      omega
  | case2 a b n => exact (by decide : 3 % 4 ≠ 1)
  | case3 a n => exact (by decide : 2 % 4 ≠ 1)
  | case4 => exact (by decide : 0 % 4 ≠ 1)

theorem sextets_ne_nil {key : List UInt8} (some_bytes : key ≠ []) : sextets key ≠ [] := by
  fun_cases sextets key with
  | case1 a b c rest n => simp
  | case2 a b n => simp
  | case3 a n => simp
  | case4 => exact absurd rfl some_bytes

/-! ### Symbols -/

/-- The symbols are the letters and digits, the hyphen and the underscore. -/
theorem symbol_plain {bits : Nat} (small : bits < 64) :
    (symbol bits).isAlphanum = true ∨ symbol bits = '-' ∨ symbol bits = '_' := by
  have each : ∀ k : Fin 64, (symbol k).isAlphanum = true ∨ symbol k = '-' ∨ symbol k = '_' := by
    decide
  exact each ⟨bits, small⟩

/-- A symbol is one byte, from which its bits are read back. -/
theorem sextet?_symbolByte {bits : Nat} (small : bits < 64) :
    sextet? (symbolByte bits) = some bits ∧ symbolByte bits ≠ padding := by
  have each : ∀ k : Fin 64,
      sextet? (symbolByte k) = some k.val ∧ symbolByte k ≠ padding := by decide
  exact each ⟨bits, small⟩

theorem utf8EncodeChar_symbol {bits : Nat} (small : bits < 64) :
    String.utf8EncodeChar (symbol bits) = [symbolByte bits] := by
  have each : ∀ k : Fin 64, String.utf8EncodeChar (symbol k) = [symbolByte k] := by decide
  exact each ⟨bits, small⟩

/-- What stands in a name. -/
theorem mem_encodeChars {key : List UInt8} {c : Char} (member : c ∈ encodeChars key) :
    c.isAlphanum = true ∨ c = '-' ∨ c = '_' := by
  rw [encodeChars_eq] at member
  obtain ⟨bits, here, rfl⟩ := List.mem_map.1 member
  exact symbol_plain (sextets_lt key bits here)

/-- A name is one segment of a path, and does not end as a directory does. -/
theorem no_separator {key : List UInt8} {c : Char} (member : c ∈ encodeChars key) :
    c ≠ '/' ∧ c ≠ '\\' := by
  have plain := mem_encodeChars member
  constructor
  · rintro rfl
    exact absurd plain (by decide)
  · rintro rfl
    exact absurd plain (by decide)

theorem utf8Bytes_encode (key : List UInt8) :
    Text.utf8Bytes (encode key) = (sextets key).map symbolByte := by
  have each : ∀ values : List Nat, (∀ bits ∈ values, bits < 64) →
      (values.map symbol).flatMap String.utf8EncodeChar = values.map symbolByte := by
    intro values small
    induction values with
    | nil => rfl
    | cons bits values ih =>
        rw [List.map_cons, List.flatMap_cons, utf8EncodeChar_symbol (small bits List.mem_cons_self),
          ih fun later member => small later (List.mem_cons_of_mem _ member)]
        rfl
  rw [Text.utf8Bytes, encode, String.toList_ofList, encodeChars_eq]
  exact each _ (sextets_lt key)

/-! ### Reading a name -/

theorem symbolAt_symbolByte {bits : Nat} (small : bits < 64) (position : Nat) :
    symbolAt position (symbolByte bits) = .ok bits := by
  rw [symbolAt, (sextet?_symbolByte small).1]

/-- Padding is read behind two symbols. -/
theorem readLast_padding (start : Nat) (final : UInt8) {values : List Nat} (before padded : Nat)
    (enough : 2 ≤ values.length + before) :
    readLast start { values, final, padded := before } (List.replicate padded padding) =
      .ok { values, final, padded := before + padded } := by
  induction padded generalizing before with
  | zero => rw [List.replicate_zero, readLast, Nat.add_zero]
  | succ padded ih =>
      rw [List.replicate_succ, readLast, if_pos rfl, if_neg (Nat.not_lt.2 enough),
        ih (before + 1) (Nat.le_succ_of_le enough), Nat.add_right_comm, Nat.add_assoc]

/-- Symbols are read one after the other, and padding if enough of them stand before it. -/
theorem readLast_symbols (start : Nat) (final : UInt8) (before : List Nat) (padded : Nat)
    {values : List Nat} (small : ∀ bits ∈ values, bits < 64)
    (enough : 0 < padded → 2 ≤ before.length + values.length) :
    ∃ last, readLast start { values := before, final, padded := 0 }
        (values.map symbolByte ++ List.replicate padded padding) =
      .ok { values := before ++ values, final := last, padded } := by
  induction values generalizing final before with
  | nil =>
      refine ⟨final, ?_⟩
      rw [List.map_nil, List.nil_append, List.append_nil]
      cases padded with
      | zero => rw [List.replicate_zero, readLast]
      | succ padded =>
          have read := readLast_padding start final 0 (padded + 1) (enough (Nat.succ_pos padded))
          rw [Nat.zero_add] at read
          exact read
  | cons bits values ih =>
      obtain ⟨read, no_padding⟩ := sextet?_symbolByte (small bits List.mem_cons_self)
      obtain ⟨last, later⟩ := ih (symbolByte bits) (before ++ [bits])
        (fun other member => small other (List.mem_cons_of_mem _ member)) fun some_padding => by
          have := enough some_padding
          rw [List.length_cons] at this
          rw [List.length_append, List.length_singleton]
          omega
      refine ⟨last, ?_⟩
      rw [List.append_assoc, List.singleton_append] at later
      simp only [List.map_cons, List.cons_append, readLast, no_padding, if_false, Nat.lt_irrefl,
        read, later]

/-- What stands last in a name is read as one group. -/
theorem decodeFrom_of_few (start : Nat) {bytes : List UInt8} (some_bytes : bytes ≠ [])
    (few : bytes.length ≤ 4) :
    decodeFrom start bytes =
      (readLast start { values := [], final := 0, padded := 0 } bytes).bind (closeLast start) := by
  match bytes, some_bytes, few with
  | [_], _, _ | [_, _], _, _ | [_, _, _], _, _ | [_, _, _, _], _, _ =>
      rw [decodeFrom]
      · rfl
      all_goals simp

/-- The bytes of a name that has a last group only. -/
theorem decodeFrom_last (start padded : Nat) {values : List Nat}
    (enough : 2 ≤ values.length) (few : values.length + padded ≤ 4)
    (small : ∀ bits ∈ values, bits < 64) :
    ∃ last, decodeFrom start (values.map symbolByte ++ List.replicate padded padding) =
      closeLast start { values, final := last, padded } := by
  obtain ⟨last, read⟩ := readLast_symbols start 0 [] padded small fun _ => by
    rw [List.length_nil, Nat.zero_add]
    exact enough
  refine ⟨last, ?_⟩
  rw [decodeFrom_of_few, read]
  · rfl
  · intro empty
    rw [List.append_eq_nil_iff, List.map_eq_nil_iff] at empty
    rw [empty.1, List.length_nil] at enough
    omega
  · rw [List.length_append, List.length_map, List.length_replicate]
    exact few

/-- A group of four symbols with more behind it is read by itself. -/
theorem decodeFrom_group (start : Nat) {p q r s : Nat} {more : List UInt8}
    (some_left : more ≠ []) (small : ∀ bits ∈ [p, q, r, s], bits < 64) :
    decodeFrom start ([p, q, r, s].map symbolByte ++ more) =
      (decodeFrom (start + 4) more).map fun tail =>
        let n := ((p * 64 + q) * 64 + r) * 64 + s
        UInt8.ofNat (n / 65536) :: UInt8.ofNat (n / 256 % 256) :: UInt8.ofNat (n % 256) ::
          tail := by
  simp only [List.mem_cons, List.not_mem_nil, or_false, forall_eq_or_imp, forall_eq] at small
  obtain ⟨next, rest, rfl⟩ := List.exists_cons_of_ne_nil some_left
  simp only [List.map_cons, List.map_nil, List.cons_append, List.nil_append, decodeFrom,
    symbolAt_symbolByte small.1, symbolAt_symbolByte small.2.1,
    symbolAt_symbolByte small.2.2.1, symbolAt_symbolByte small.2.2.2]
  cases decodeFrom (start + 4) (next :: rest) <;> rfl

theorem ofNat_eq {n : Nat} (byte : UInt8) (same : n = byte.toNat) : UInt8.ofNat n = byte := by
  rw [same, UInt8.ofNat_toNat]

/-- The four numbers of three bytes are put together to the bytes. -/
theorem bytes_of_group (a b c : UInt8) :
    let n := (a.toNat * 256 + b.toNat) * 256 + c.toNat
    let n := ((n / 262144 * 64 + n / 4096 % 64) * 64 + n / 64 % 64) * 64 + n % 64
    [UInt8.ofNat (n / 65536), UInt8.ofNat (n / 256 % 256), UInt8.ofNat (n % 256)] = [a, b, c] := by
  intro n n'
  have := a.toNat_lt
  have := b.toNat_lt
  have := c.toNat_lt
  have same : n' = n := by omega
  rw [same, ofNat_eq a (by omega), ofNat_eq b (by omega),
    ofNat_eq c (by omega)]

/-- The spare bits of a key's last number are zeros. -/
theorem closeLast_sextets (start : Nat) (final : UInt8) (padded : Nat) {key : List UInt8}
    (some_bytes : key ≠ []) (few : key.length ≤ 3) :
    closeLast start { values := sextets key, final, padded } = .ok key := by
  match key, some_bytes, few with
  | [a, b, c], _, _ =>
      simp only [sextets, closeLast]
      exact congrArg Except.ok (bytes_of_group a b c)
  | [a, b], _, _ =>
      have := a.toNat_lt
      have := b.toNat_lt
      simp only [sextets, closeLast]
      rw [if_pos (by omega), ofNat_eq a (by omega), ofNat_eq b (by omega)]
  | [a], _, _ =>
      have := a.toNat_lt
      simp only [sextets, closeLast]
      rw [if_pos (by omega), ofNat_eq a (by omega)]

/-- One number more than bytes. -/
theorem length_sextets_of_few {key : List UInt8} (some_bytes : key ≠ []) (few : key.length ≤ 3) :
    (sextets key).length = key.length + 1 := by
  match key, some_bytes, few with
  | [_, _, _], _, _ | [_, _], _, _ | [_], _, _ => simp [sextets]

/-- How many bytes a length lacks to be a multiple of four. -/
def missing (length : Nat) : Nat := (4 - length % 4) % 4

/-- Groups of four lack nothing. -/
theorem missing_add_four (length : Nat) : missing (length + 4) = missing length := by
  simp only [missing, Nat.add_mod_right]

/-- The numbers of a key are read as the key, with no more padding behind them than completes
their last group. -/
theorem decodeFrom_sextets (start : Nat) (key : List UInt8) {padded : Nat}
    (fits : padded ≤ missing (sextets key).length) :
    decodeFrom start ((sextets key).map symbolByte ++ List.replicate padded padding) =
      .ok key := by
  have of_last : ∀ {key : List UInt8}, key ≠ [] → key.length ≤ 3 →
      padded ≤ missing (sextets key).length → ∀ start,
      decodeFrom start ((sextets key).map symbolByte ++ List.replicate padded padding) =
        .ok key := by
    intro key some_bytes few fits start
    have counted := length_sextets_of_few some_bytes few
    have := List.length_pos_iff.2 some_bytes
    unfold missing at fits
    obtain ⟨final, read⟩ := decodeFrom_last start padded (by omega) (by omega) (sextets_lt key)
    rw [read, closeLast_sextets start final padded some_bytes few]
  induction key using sextets.induct generalizing start with
  | case1 a b c rest ih =>
      by_cases last : rest = []
      · subst last
        exact of_last (List.cons_ne_nil _ _) (by simp) fits start
      · have small := sextets_lt (a :: b :: c :: rest)
        have more : (sextets rest).map symbolByte ++ List.replicate padded padding ≠ [] := by
          simp [sextets_ne_nil last]
        simp only [sextets, List.length_cons, missing_add_four] at small fits ⊢
        have read := decodeFrom_group start more
          fun bits member => small bits (List.mem_append_left (sextets rest) member)
        have group := bytes_of_group a b c
        simp only [List.cons.injEq, and_true] at group
        rw [ih (start + 4) fits] at read
        simp only [Except.map, group] at read
        exact read
  | case2 a b => exact of_last (List.cons_ne_nil _ _) (by simp) fits start
  | case3 a => exact of_last (List.cons_ne_nil _ _) (by simp) fits start
  | case4 =>
      obtain rfl : padded = 0 := Nat.le_zero.1 fits
      rfl

/-- Padding that completes a name leaves no byte alone in the last group. -/
theorem length_padded (key : List UInt8) {padded : Nat}
    (fits : padded ≤ missing (sextets key).length) :
    ((sextets key).length + padded) % 4 ≠ 1 := by
  have := length_sextets key
  unfold missing at fits
  omega

/-- A key is read back from the bytes of its name, whether or not padding completes them. -/
theorem decodeBytes_sextets (key : List UInt8) {padded : Nat}
    (fits : padded ≤ missing (sextets key).length) :
    decodeBytes ((sextets key).map symbolByte ++ List.replicate padded padding) = .ok key := by
  have complete : strayEnd? ((sextets key).map symbolByte ++ List.replicate padded padding) =
      none := by
    rw [strayEnd?, if_neg]
    rw [List.length_append, List.length_map, List.length_replicate]
    exact length_padded key fits
  rw [decodeBytes, complete]
  exact decodeFrom_sextets 0 key fits

/-- A key is read back from its name. -/
theorem decode_encode (key : List UInt8) : decode (encode key) = .ok key := by
  have read := decodeBytes_sextets key (Nat.zero_le _)
  rw [List.replicate_zero, List.append_nil] at read
  rw [decode, utf8Bytes_encode, read]

end KeyName

/-! ### Paths of records -/

namespace Layout

variable (layout : Layout) (package : String)

/-- A key's name is read off the path of its record. -/
theorem lastSegment_recordPath (key : List UInt8) :
    lastSegment (layout.recordPath package (KeyName.encode key)) = KeyName.encode key := by
  have plain : ∀ c ∈ (KeyName.encodeChars key).reverse, decide (c ≠ '/') = true := by
    intro c member
    simpa using (KeyName.no_separator (List.mem_reverse.1 member)).1
  rw [lastSegment, toList_recordPath, toList_recordsOf, KeyName.encode, String.toList_ofList]
  simp only [List.reverse_append, List.reverse_cons, List.reverse_nil, List.nil_append,
    List.singleton_append, List.takeWhile_append_of_pos plain]
  rw [List.cons_append, List.takeWhile_cons_of_neg (by simp)]
  simp only [List.reverse_nil, List.nil_append, List.reverse_reverse]

/-- The path of a record ends as the name of its key does. -/
theorem getLast?_recordPath {key : List UInt8} (some_bytes : key ≠ []) :
    ∃ c ∈ KeyName.encodeChars key,
      (layout.recordPath package (KeyName.encode key)).toList.getLast? = some c := by
  have some_chars : KeyName.encodeChars key ≠ [] := by
    rw [KeyName.encodeChars_eq]
    simpa using KeyName.sextets_ne_nil some_bytes
  refine ⟨_, List.getLast_mem some_chars, ?_⟩
  rw [toList_recordPath, KeyName.encode, String.toList_ofList,
    List.getLast?_append, List.getLast?_eq_some_getLast some_chars, Option.some_or]

/-- The empty key has the empty name, so the path of its record ends in a separator. -/
theorem getLast?_recordPath_nil :
    (layout.recordPath package (KeyName.encode [])).toList.getLast? = some '/' := by
  have empty : (KeyName.encode []).toList = [] := rfl
  rw [toList_recordPath, toList_recordsOf, empty, List.append_nil, ← List.append_assoc,
    List.getLast?_concat]

end Layout
end BackupRestore
