/-
Module: BackupRestore.Proofs.Separation
Purpose: Which entries count for more than one package.
Main exports: Layout.Counts, Settings.layout_of_accepted, Settings.counts_for_both_iff,
  Settings.nested_directories_mix_packages
-/
import BackupRestore.Proofs.Lookup
import BackupRestore.Settings
import Mathlib.Data.List.Basic

namespace BackupRestore

/-!
An entry counts for a package by its name, as one of the package's records or as its full stream.
The name of a package has no separator in it, so the places of the separators say how a path is
to be read: two packages share no record and no stream.  One reading is left open.  A directory
of full streams may lie among the records of a package; then the stream of every other package
has the name of a record of that one.
-/

/-- The entry is a record of the package or its full stream, and no directory. -/
def Layout.Counts (layout : Layout) (package : String) (e : Zip.Entry) : Prop :=
  (Pattern.under (layout.recordsOf package)).selects e = true ∨
    (Pattern.exactly (layout.streamPath package)).selects e = true

namespace Layout

variable {layout : Layout} {p q : String} {e : Zip.Entry}

/-- The directory of full streams lies among the records of the package. -/
def StreamsWithin (layout : Layout) (package : String) : Prop :=
  ∃ rest, layout.fullDir = layout.recordsOf package ++ rest

/-! ### Names of one kind -/

theorem takeWhile_of_plain {segment : List Char} (plain : '/' ∉ segment) (later : List Char) :
    (segment ++ '/' :: later).takeWhile (· ≠ '/') = segment := by
  have passed : ∀ c ∈ segment, decide (c ≠ '/') = true := by
    intro c member
    simp only [decide_eq_true_eq]
    rintro rfl
    exact plain member
  rw [List.takeWhile_append_of_pos passed, List.takeWhile_cons_of_neg (by simp), List.append_nil]

/-- A path tells what stands before its first separator. -/
theorem segment_unique {first other s t : List Char} (plain : '/' ∉ first)
    (other_plain : '/' ∉ other) (same : first ++ '/' :: s = other ++ '/' :: t) : first = other := by
  rw [← takeWhile_of_plain plain s, same, takeWhile_of_plain other_plain]

/-- A record is a record of one package. -/
theorem eq_of_records (p_plain : '/' ∉ p.toList) (q_plain : '/' ∉ q.toList)
    (of_p : (Pattern.under (layout.recordsOf p)).selects e = true)
    (of_q : (Pattern.under (layout.recordsOf q)).selects e = true) : p = q := by
  obtain ⟨-, s, p_begins⟩ := Pattern.selects_under_iff.1 of_p
  obtain ⟨-, t, q_begins⟩ := Pattern.selects_under_iff.1 of_q
  have same := p_begins.trans q_begins.symm
  simp only [toList_recordsOf, List.append_assoc, List.append_cancel_left_eq,
    List.singleton_append] at same
  exact String.toList_inj.1 (segment_unique p_plain q_plain same)

/-- A full stream is the full stream of one package. -/
theorem eq_of_streams (of_p : (Pattern.exactly (layout.streamPath p)).selects e = true)
    (of_q : (Pattern.exactly (layout.streamPath q)).selects e = true) : p = q := by
  obtain ⟨-, p_name⟩ := Pattern.selects_exactly_iff.1 of_p
  obtain ⟨-, q_name⟩ := Pattern.selects_exactly_iff.1 of_q
  have characters := congrArg String.toList (p_name.symm.trans q_name)
  rw [streamPath, streamPath, String.toList_append, String.toList_append,
    List.append_cancel_left_eq] at characters
  exact String.toList_inj.1 characters

/-! ### Names of both kinds -/

/-- A beginning of a path that ends in a separator does not end in the last segment. -/
theorem prefix_of_prefix_append {front dir segment : List Char} (plain : '/' ∉ segment)
    (begins : front ++ ['/'] <+: dir ++ segment) : front ++ ['/'] <+: dir := by
  rcases List.prefix_or_prefix_of_prefix begins (List.prefix_append dir segment) with
    within | ⟨x, beyond⟩
  · exact within
  · rw [← beyond, List.prefix_append_right_inj] at begins
    rcases List.eq_nil_or_concat x with rfl | ⟨x, last, rfl⟩
    · rw [List.append_nil] at beyond
      exact ⟨[], by rw [beyond, List.append_nil]⟩
    · -- The last character of both is the separator, which is then in the segment.
      have ends := congrArg List.getLast? beyond
      simp only [List.concat_eq_append, ← List.append_assoc, List.getLast?_concat,
        Option.some.injEq] at ends
      subst ends
      exact absurd (begins.subset (by simp)) plain

/-- The full stream of a package is a record of another one only where the streams lie among the
records of that one. -/
theorem streamsWithin_of_both (q_plain : '/' ∉ q.toList)
    (record : (Pattern.under (layout.recordsOf p)).selects e = true)
    (stream : (Pattern.exactly (layout.streamPath q)).selects e = true) :
    layout.StreamsWithin p := by
  obtain ⟨-, begins⟩ := Pattern.selects_under_iff.1 record
  obtain ⟨-, name⟩ := Pattern.selects_exactly_iff.1 stream
  rw [name, streamPath, String.toList_append, toList_recordsOf, ← List.append_assoc] at begins
  obtain ⟨rest, within⟩ := prefix_of_prefix_append q_plain begins
  refine ⟨String.ofList rest, String.toList_inj.1 ?_⟩
  rw [String.toList_append, toList_recordsOf, String.toList_ofList, ← within,
    List.append_assoc layout.incrementalDir.toList]

/-- Where the streams lie among the records of a package, every stream is one of its records. -/
theorem record_of_streamsWithin (within : layout.StreamsWithin p) (file : e.isDirectory = false)
    (stream : e.name = layout.streamPath q) :
    (Pattern.under (layout.recordsOf p)).selects e = true := by
  obtain ⟨rest, inside⟩ := within
  refine Pattern.selects_under_iff.2 ⟨file, rest.toList ++ q.toList, ?_⟩
  rw [stream, streamPath, inside, String.toList_append, String.toList_append, List.append_assoc]

/-- An entry counts for two packages exactly if it is the stream of one of them and the streams
lie among the records of the other. -/
theorem counts_both_iff (p_plain : '/' ∉ p.toList) (q_plain : '/' ∉ q.toList) (differ : p ≠ q) :
    layout.Counts p e ∧ layout.Counts q e ↔ e.isDirectory = false ∧
      ((layout.StreamsWithin p ∧ e.name = layout.streamPath q) ∨
        (layout.StreamsWithin q ∧ e.name = layout.streamPath p)) := by
  constructor
  · rintro ⟨p_record | p_stream, q_record | q_stream⟩
    · exact absurd (eq_of_records p_plain q_plain p_record q_record) differ
    · obtain ⟨file, name⟩ := Pattern.selects_exactly_iff.1 q_stream
      exact ⟨file, Or.inl ⟨streamsWithin_of_both q_plain p_record q_stream, name⟩⟩
    · obtain ⟨file, name⟩ := Pattern.selects_exactly_iff.1 p_stream
      exact ⟨file, Or.inr ⟨streamsWithin_of_both p_plain q_record p_stream, name⟩⟩
    · exact absurd (eq_of_streams p_stream q_stream) differ
  · rintro ⟨file, ⟨within, name⟩ | ⟨within, name⟩⟩
    · exact ⟨Or.inl (record_of_streamsWithin within file name),
        Or.inr (Pattern.selects_exactly_iff.2 ⟨file, name⟩)⟩
    · exact ⟨Or.inr (Pattern.selects_exactly_iff.2 ⟨file, name⟩),
        Or.inl (record_of_streamsWithin within file name)⟩

end Layout

namespace Settings

/-- Directories that are accepted are spelled with their final separators already. -/
theorem layout_of_accepted {settings : Settings} (accepted : settings.validate = .ok ()) :
    settings.layout.incrementalDir = settings.incrementalDir ∧
      settings.layout.fullDir = settings.fullDir := by
  have kept : ∀ {dir : String}, isDirectoryName dir = true → Layout.closed dir = dir := by
    intro dir named
    simp only [isDirectoryName, Bool.and_eq_true, beq_iff_eq] at named
    exact if_pos named.1
  have faultless : settings.fault? = none := by
    unfold validate at accepted
    split at accepted
    · cases accepted
    · assumption
  unfold fault? at faultless
  split at faultless
  · cases faultless
  · split at faultless
    · cases faultless
    · rename_i incremental
      split at faultless
      · cases faultless
      · rename_i full
        simp only [Bool.not_eq_true', Bool.not_eq_false] at incremental full
        exact ⟨kept incremental, kept full⟩

/-- Under settings that are accepted, an entry counts for two packages exactly if it is the full
stream of one of them and the directory of full streams lies among the records of the other. -/
theorem counts_for_both_iff {settings : Settings} (accepted : settings.validate = .ok ())
    {p q : String} (p_plain : '/' ∉ p.toList) (q_plain : '/' ∉ q.toList) (differ : p ≠ q)
    (e : Zip.Entry) :
    settings.layout.Counts p e ∧ settings.layout.Counts q e ↔ e.isDirectory = false ∧
      (((∃ rest, settings.fullDir = settings.incrementalDir ++ p ++ "/" ++ rest) ∧
          e.name = settings.fullDir ++ q) ∨
        ((∃ rest, settings.fullDir = settings.incrementalDir ++ q ++ "/" ++ rest) ∧
          e.name = settings.fullDir ++ p)) := by
  have both : settings.layout.Counts p e ∧ settings.layout.Counts q e ↔ _ :=
    Layout.counts_both_iff p_plain q_plain differ
  obtain ⟨incremental, full⟩ := layout_of_accepted accepted
  simp only [Layout.StreamsWithin, Layout.recordsOf, Layout.streamPath, incremental, full] at both
  exact both

/-- The file `a/b/c` counts for the packages `b` and `c` where streams are in `a/b/`. -/
theorem counts_for_both_iff_of_sample :
    let settings : Settings := { incrementalDir := "a/", fullDir := "a/b/" }
    let e : Zip.Entry := { Sample.stream with name := "a/b/c" }
    settings.validate = .ok () ∧ '/' ∉ "b".toList ∧ '/' ∉ "c".toList ∧ "b" ≠ "c" ∧
      settings.layout.Counts "b" e ∧ settings.layout.Counts "c" e := by
  intro settings e
  have accepted : settings.validate = .ok () := by decide
  have within : settings.fullDir = settings.incrementalDir ++ "b" ++ "/" ++ "" := by decide
  exact ⟨accepted, by decide, by decide, by decide,
    (counts_for_both_iff accepted (p := "b") (q := "c") (by decide) (by decide) (by decide) e).2
      ⟨by decide, Or.inl ⟨⟨"", within⟩, by decide⟩⟩⟩

/-- Settings with one directory inside the other are accepted, and then a file can count for two
packages. -/
theorem nested_directories_mix_packages :
    ¬∀ (settings : Settings) (p q : String) (e : Zip.Entry), settings.validate = .ok () →
      '/' ∉ p.toList → '/' ∉ q.toList → p ≠ q →
      ¬(settings.layout.Counts p e ∧ settings.layout.Counts q e) := by
  intro separate
  refine separate { incrementalDir := "a/", fullDir := "a/b/" } "b" "c"
    { Sample.stream with name := "a/b/c" } (by decide) (by decide) (by decide) (by decide) ?_
  exact ⟨Or.inl (by decide), Or.inr (by decide)⟩

end Settings
end BackupRestore
