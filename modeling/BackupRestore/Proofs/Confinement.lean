/-
Module: BackupRestore.Proofs.Confinement
Purpose: Which files a restore can touch: those that belong to its packages, in its directory.
Main exports: PathName.ofText_outputPath, FileTree.leads_outputPath, Command.fileName_injective,
  Command.Job.serve_cases, Command.Job.alters_serveAll, Command.restorePackages_cases,
  Command.MadeFor, Command.FileFor, Command.Confined, Command.restorePackages_confined
-/
import BackupRestore.Proofs.Restores

namespace BackupRestore

/-!
The name of a package becomes the last name of a path, and whoever makes the archive or calls the
program may choose it.  A name that is accepted has no separator in it, so the path has one name
more than the path of the directory for files, and that name never leads up: the file stands in
the directory itself (`FileTree.leads_outputPath`).  From there on it is a matter of the steps:
each leaves the tree as it is but for the file of the package that it serves.
-/

/-! ### The path of a package's file -/

/-- The pieces of a text that has a slash in it are those in front of it and those behind it. -/
theorem piecesBetweenSlashes_append (before behind : List Char) :
    piecesBetweenSlashes (before ++ '/' :: behind) =
      piecesBetweenSlashes before ++ piecesBetweenSlashes behind := by
  have some_piece : ∀ chars, ∃ piece pieces, piecesBetweenSlashes chars = piece :: pieces := by
    intro chars
    cases chars with
    | nil => exact ⟨_, _, rfl⟩
    | cons c rest =>
        rw [piecesBetweenSlashes]
        split
        · exact ⟨_, _, rfl⟩
        · split
          · exact ⟨_, _, rfl⟩
          · exact ⟨_, _, rfl⟩
  induction before with
  | nil =>
      obtain ⟨piece, pieces, split⟩ := some_piece behind
      simp only [List.nil_append, piecesBetweenSlashes, split, beq_self_eq_true, if_true,
        List.singleton_append]
  | cons c before ih =>
      obtain ⟨piece, pieces, split⟩ := some_piece before
      rw [List.cons_append, piecesBetweenSlashes, ih, piecesBetweenSlashes, split,
        List.cons_append]
      simp only
      split <;> rfl

theorem piecesBetweenSlashes_of_plain {chars : List Char} (plain : '/' ∉ chars) :
    piecesBetweenSlashes chars = [chars] := by
  induction chars with
  | nil => rfl
  | cons c rest ih =>
      rw [List.mem_cons, not_or] at plain
      have other : (c == '/') = false := beq_false_of_ne (Ne.symm plain.1)
      rw [piecesBetweenSlashes, ih plain.2]
      simp only [other, Bool.false_eq_true, if_false]

namespace Command

/-- The name of the file that holds a package's data. -/
def fileName (package : String) (mode : RestoreMode) : String := package ++ "." ++ extension mode

theorem toList_fileName (package : String) (mode : RestoreMode) :
    (fileName package mode).toList = package.toList ++ '.' :: (extension mode).toList := by
  simp only [fileName, String.toList_append, List.append_assoc]
  rfl

/-- Files of different packages, or of different kinds of data, have different names. -/
theorem fileName_injective {package package' : String} {mode mode' : RestoreMode}
    (some_data : mode ≠ .none) (some_data' : mode' ≠ .none)
    (same : fileName package mode = fileName package' mode') :
    package = package' ∧ mode = mode' := by
  have chars := congrArg String.toList same
  rw [toList_fileName, toList_fileName] at chars
  have same_mode : mode = mode' := by
    have last := congrArg List.getLast? chars
    cases mode <;> cases mode' <;> simp [extension] at some_data some_data' last ⊢
  subst same_mode
  exact ⟨String.toList_injective (List.append_cancel_right chars), rfl⟩

/-- The name of a file does not stay in its directory and does not lead up from it. -/
theorem fileName_plain (package : String) (mode : RestoreMode) :
    fileName package mode ≠ "." ∧ fileName package mode ≠ ".." := by
  have last : (fileName package mode).toList.getLast? ≠ some '.' := by
    rw [toList_fileName]
    cases mode <;> simp [extension]
  constructor
  · intro same
    rw [same] at last
    exact last rfl
  · intro same
    rw [same] at last
    exact last rfl

/-- A name that is accepted has no separator in it, and neither has the name of its file. -/
theorem no_slash_in_fileName {package : String} (named : isFileName package = true)
    (mode : RestoreMode) : '/' ∉ (fileName package mode).toList := by
  unfold isFileName at named
  simp only [Bool.not_eq_true', Bool.or_eq_false_iff, List.any_eq_false, Bool.or_eq_true,
    beq_iff_eq, not_or] at named
  rw [toList_fileName, List.mem_append, not_or]
  refine ⟨fun member => (named.2 '/' member).1 rfl, ?_⟩
  cases mode <;> decide

end Command

open Command

/-- The path of a package's file spells the directory's path, and behind a slash the name of the
file. -/
theorem Command.toList_outputPath (out package : String) (mode : RestoreMode) :
    ∃ before, (outputPath out package mode).toList = before ++ (fileName package mode).toList ∧
      ((before = out.toList ∧ (out.isEmpty = true ∨ ∃ init, out.toList = init ++ ['/'])) ∨
        (before = out.toList ++ ['/'] ∧ out.isEmpty = false)) := by
  unfold outputPath fileName
  split
  · rename_i closed
    refine ⟨out.toList, by simp only [String.toList_append, List.append_assoc], Or.inl ⟨rfl, ?_⟩⟩
    rw [Bool.or_eq_true, beq_iff_eq] at closed
    exact closed.imp_right fun last => List.getLast?_eq_some_iff.1 last
  · rename_i open_
    rw [Bool.or_eq_true, not_or] at open_
    refine ⟨out.toList ++ ['/'], ?_, Or.inr ⟨rfl, eq_false_of_ne_true open_.1⟩⟩
    simp only [String.toList_append, List.append_assoc]
    rfl

/-- The path of a package's file has the names of the directory's path, and that of the file. -/
theorem PathName.ofText_outputPath {package : String} (named : isFileName package = true)
    (out : String) (mode : RestoreMode) :
    (ofText (outputPath out package mode)).names =
        (ofText out).names ++ [fileName package mode] ∧
      (out.isEmpty = false →
        (ofText (outputPath out package mode)).isAbsolute = (ofText out).isAbsolute) := by
  have plain := piecesBetweenSlashes_of_plain (no_slash_in_fileName named mode)
  have some_char : (fileName package mode).toList.isEmpty = false := by
    rw [toList_fileName]
    exact List.isEmpty_eq_false_iff.2 (List.append_ne_nil_of_right_ne_nil _ (List.cons_ne_nil _ _))
  have last_name : ([(fileName package mode).toList].filter (!·.isEmpty)).map String.ofList =
      [fileName package mode] := by
    rw [List.filter_cons_of_pos (by rw [some_char]; rfl)]
    simp only [List.filter_nil, List.map_cons, List.map_nil, String.ofList_toList]
  -- behind a slash the name is the last of the pieces
  have behind : ∀ chars, (piecesBetweenSlashes (chars ++ ['/'] ++ (fileName package mode).toList)) =
      piecesBetweenSlashes chars ++ [(fileName package mode).toList] := by
    intro chars
    rw [List.append_assoc, List.singleton_append, piecesBetweenSlashes_append, plain]
  obtain ⟨before, spelled, ⟨rfl, nothing | ⟨init, closed⟩⟩ | ⟨rfl, something⟩⟩ :=
    toList_outputPath out package mode
  · have empty : out = "" := String.isEmpty_iff.1 nothing
    subst empty
    constructor
    · simp only [ofText, spelled]
      rw [String.toList_empty, List.nil_append, plain, last_name]
      rfl
    · intro something
      cases something
  · constructor
    · have around : piecesBetweenSlashes (init ++ ['/']) = piecesBetweenSlashes init ++ [[]] :=
        piecesBetweenSlashes_append init []
      simp only [ofText, spelled, closed]
      rw [behind, around]
      simp only [List.filter_append, List.map_append, last_name]
      simp only [List.filter_cons, List.isEmpty_nil, Bool.not_true, Bool.false_eq_true, if_false,
        List.filter_nil, List.map_nil, List.append_nil]
    · intro
      simp only [ofText, spelled, closed, List.head?_append]
      cases init <;> rfl
  · constructor
    · simp only [ofText, spelled]
      rw [behind]
      simp only [List.filter_append, List.map_append, last_name]
    · intro
      have some_char : out.toList ≠ [] := by
        intro none_left
        rw [String.toList_eq_nil_iff.1 none_left] at something
        cases something
      obtain ⟨c, rest, begins⟩ := List.exists_cons_of_ne_nil some_char
      simp only [ofText, spelled, begins]
      rfl

/-- The file of a package stands in the directory itself, under its own name. -/
theorem FileTree.leads_outputPath {t : FileTree} {out package : String} {mode : RestoreMode}
    {directory place : Location} (named : isFileName package = true)
    (out_led : t.Leads (.ofText out) directory)
    (led : t.Leads (.ofText (outputPath out package mode)) place) :
    place = directory ++ [fileName package mode] := by
  obtain ⟨first, begins, along⟩ := out_led
  obtain ⟨first', begins', along'⟩ := led
  obtain ⟨some_path, start⟩ := start_eq_ok begins
  obtain ⟨-, start'⟩ := start_eq_ok begins'
  have something : out.isEmpty = false := by
    apply eq_false_of_ne_true
    intro nothing
    rw [String.isEmpty_iff.1 nothing] at some_path
    cases some_path
  obtain ⟨names, absolute⟩ := PathName.ofText_outputPath named out mode
  rw [absolute something, ← start] at start'
  subst start'
  rw [names] at along'
  obtain ⟨middle, to_directory, to_file⟩ := exists_middle_of_follow along'
  rw [along] at to_directory
  cases to_directory
  obtain ⟨-, next, step, done⟩ := follow_cons_eq_ok_iff.1 to_file
  cases done
  obtain ⟨moves, climbs_not⟩ := fileName_plain package mode
  rw [step?, if_neg moves, if_neg climbs_not] at step
  split at step
  · cases step
  · cases step
    rfl

/-! ### What a step changes -/

namespace Command
namespace Job

variable [Zip.Codecs] {j : Job} {files : FileTree} {place : Location} {d : PackageDescription}

/-- A package is refused for its name, or has no file made for it, or its file is made and then
filled or removed. -/
theorem serve_cases (j : Job) (files : FileTree) (d : PackageDescription) :
    (isFileName d.package = false ∧ j.serve files d = (.failed .badName, files)) ∨
    (isFileName d.package = true ∧ ∃ fault,
      files.createFile (.ofText (outputPath j.out d.package d.mode)) = .error fault ∧
      j.serve files d = (.failed (.fileUnmade (outputPath j.out d.package d.mode) fault), files)) ∨
    (isFileName d.package = true ∧ ∃ place,
      files.createFile (.ofText (outputPath j.out d.package d.mode)) =
        .ok (place, files.write place #[]) ∧
      j.serve files d = j.fill (files.write place #[]) place d) := by
  unfold serve
  cases named : isFileName d.package with
  | false => exact Or.inl ⟨rfl, rfl⟩
  | true =>
      simp only [Bool.not_true, Bool.false_eq_true, if_false]
      cases made : files.createFile (.ofText (outputPath j.out d.package d.mode)) with
      | error fault => exact Or.inr (Or.inl ⟨trivial, fault, rfl, rfl⟩)
      | ok file =>
          obtain ⟨place, emptied⟩ := file
          obtain ⟨-, -, -, rfl⟩ := FileTree.createFile_eq_ok made
          exact Or.inr (Or.inr ⟨trivial, place, rfl, rfl⟩)

/-- The file of a package holds what the archive has for it, or is gone. -/
theorem fill_cases (j : Job) (files : FileTree) (place : Location) (d : PackageDescription) :
    (∃ outcome bytes, j.held (Medium.contentOfFile files j.archive) d = .ok (outcome, bytes) ∧
      j.fill files place d = (outcome, files.write place bytes.toArray)) ∨
    (∃ why, j.held (Medium.contentOfFile files j.archive) d = .error why ∧
      j.fill files place d = (.failed why, files.remove place)) := by
  unfold fill
  cases held : j.held (Medium.contentOfFile files j.archive) d with
  | ok moved => exact Or.inl ⟨moved.1, moved.2, rfl, rfl⟩
  | error why => exact Or.inr ⟨why, rfl, rfl⟩

theorem alters_fill (j : Job) (no_directory : files.node? place ≠ some .directory)
    (d : PackageDescription) : files.Alters (j.fill files place d).2 (· = place) := by
  rcases j.fill_cases files place d with ⟨outcome, bytes, -, filled⟩ | ⟨why, -, filled⟩
  · rw [filled]
    exact FileTree.alters_write no_directory _
  · rw [filled]
    exact FileTree.alters_remove no_directory

/-- A package leaves the files as they are, but for its own, if it has one. -/
theorem alters_serve (j : Job) (files : FileTree) (d : PackageDescription) :
    files.Alters (j.serve files d).2 fun place =>
      isFileName d.package = true ∧
        files.Leads (.ofText (outputPath j.out d.package d.mode)) place := by
  rcases j.serve_cases files d with
    ⟨-, served⟩ | ⟨-, fault, -, served⟩ | ⟨named, place, made, served⟩
  · rw [served]
    exact .refl files _
  · rw [served]
    exact .refl files _
  · rw [served]
    obtain ⟨led, no_directory, -, -⟩ := FileTree.createFile_eq_ok made
    have emptied := FileTree.alters_write no_directory #[]
    have still : (files.write place #[]).node? place ≠ some .directory :=
      fun directory => no_directory ((emptied.directories.directories place).1 directory)
    apply (emptied.trans (j.alters_fill still d)).mono
    rintro _ rfl
    exact ⟨named, led⟩

/-- What is served is a package that was asked for and that the archive has data for, and it is
refused if its name is. -/
theorem package_of_serveAll {packages : List String} :
    ∀ r ∈ (j.serveAll files packages).1, r.package ∈ packages ∧ r.mode ≠ .none ∧
      (isFileName r.package = false → r.outcome = .failed .badName) := by
  fun_induction serveAll j files packages with
  | case1 files => exact fun r none_served => absurd none_served List.not_mem_nil
  | case2 files package rest passed ih =>
      intro r served
      obtain ⟨listed, behind⟩ := ih r served
      exact ⟨List.mem_cons_of_mem _ listed, behind⟩
  | case3 files package rest d chosen misuse refused =>
      exact fun r none_served => absurd none_served List.not_mem_nil
  | case4 files package rest d chosen answer admitted outcome files' served results misuse files''
      rest_served ih =>
      rw [rest_served] at ih
      intro r member
      rcases List.mem_cons.1 member with rfl | later
      · obtain ⟨-, -, same, -, some_data⟩ := choiceIn_eq_some chosen
        refine ⟨by rw [same]; exact List.mem_cons_self, some_data, fun bad_name => ?_⟩
        rcases j.serve_cases files d with ⟨-, refused⟩ | ⟨named, -⟩ | ⟨named, -⟩
        · rw [served] at refused
          exact congrArg Prod.fst refused
        · rw [named] at bad_name
          cases bad_name
        · rw [named] at bad_name
          cases bad_name
      · obtain ⟨listed, behind⟩ := ih r later
        exact ⟨List.mem_cons_of_mem _ listed, behind⟩

/-- A run leaves the files as they are, but for those of the packages that are served. -/
theorem alters_serveAll (j : Job) (files : FileTree) (packages : List String) :
    files.Alters (j.serveAll files packages).2.2 fun place =>
      ∃ r ∈ (j.serveAll files packages).1, isFileName r.package = true ∧
        files.Leads (.ofText (outputPath j.out r.package r.mode)) place := by
  fun_induction serveAll j files packages with
  | case1 files => exact .refl files _
  | case2 files package rest passed ih => exact ih
  | case3 files package rest d chosen misuse refused => exact .refl files _
  | case4 files package rest d chosen answer admitted outcome files' served results misuse files''
      rest_served ih =>
      have first := j.alters_serve files d
      rw [served] at first
      rw [rest_served] at ih
      apply (first.mono ?_).trans (ih.mono ?_)
      · rintro place ⟨named, led⟩
        exact ⟨_, List.mem_cons_self, named, led⟩
      · rintro place ⟨r, later, named, led⟩
        exact ⟨r, List.mem_cons_of_mem _ later, named, first.directories.leads_iff.1 led⟩

end Job

/-! ### What a restore changes -/

/-- A restore ends before it looks at a package, or serves the packages one after the other. -/
theorem restorePackages_cases [Zip.Codecs] (environment : String → Option String) (files : FileTree)
    (s : SourceOptions) (out : String) (token : Option Nat) (packages : List String) :
    (∃ failure, restorePackages environment files s out token packages =
        (.ofFailure [] failure, files) ∧
      restoredPackages environment files s out token packages = []) ∨
    (∃ failure, restorePackages environment files s out token packages =
        (.ofFailure [] failure, (files.makeDirectories (.ofText out)).2) ∧
      restoredPackages environment files s out token packages = []) ∨
    (∃ (j : Job) (files' : FileTree), j.out = out ∧
      files.makeDirectories (.ofText out) = (.ok (), files') ∧
      restorePackages environment files s out token packages =
        Job.report (j.serveAll files' packages) ∧
      restoredPackages environment files s out token packages =
        (j.serveAll files' packages).1) := by
  cases opened : openTransport environment files s with
  | error failure =>
      refine Or.inl ⟨failure, ?_, ?_⟩
      · simp only [restorePackages, opened]
      · simp only [restoredPackages, opened]
  | ok t =>
      rcases made : files.makeDirectories (.ofText out) with ⟨fault | done, files'⟩
      · refine Or.inr (Or.inl ⟨.noOutputDirectory out fault, ?_, ?_⟩)
        · simp only [restorePackages, opened, made]
        · simp only [restoredPackages, opened, made]
      · obtain ⟨restored, results⟩ := restorePackages_eq opened made token packages
        exact Or.inr (Or.inr ⟨Job.of t s.archive out, files', rfl, rfl, restored, results⟩)

/-- Nothing stood at the place, and a directory has been made there on the way to the directory
that receives files. -/
structure MadeFor (files files' : FileTree) (out : String) (place : Location) : Prop where
  free : files.node? place = none
  directory : files'.node? place = some .directory
  led : ∃ way, way <+: (PathName.ofText out).names.filter (· != ".") ∧
    files'.Leads { isAbsolute := (PathName.ofText out).isAbsolute, names := way } place

/-- The place is directly in the directory that receives files, under the name of the file for the
package, whose own name is accepted.  It is no place of a directory. -/
structure FileFor (files files' : FileTree) (out : String) (r : PackageResult)
    (place : Location) : Prop where
  named : isFileName r.package = true
  stands : ∃ directory, files'.find (.ofText out) = .ok (directory, .directory) ∧
    place = directory ++ [fileName r.package r.mode]
  no_directory : files.node? place ≠ some .directory ∧ files'.node? place ≠ some .directory

/-- Packages of different names or with different data never share a file. -/
theorem FileFor.package_eq {files files' : FileTree} {out : String} {r r' : PackageResult}
    {place : Location} (first : FileFor files files' out r place)
    (second : FileFor files files' out r' place) (some_data : r.mode ≠ .none)
    (some_data' : r'.mode ≠ .none) : r.package = r'.package ∧ r.mode = r'.mode := by
  obtain ⟨directory, -, at_first⟩ := first.stands
  obtain ⟨directory', -, at_second⟩ := second.stands
  rw [at_first] at at_second
  obtain ⟨-, same⟩ := List.append_inj' at_second rfl
  exact fileName_injective some_data some_data' (List.singleton_inj.1 same)

/-- After a job has been done in the directory that was made for it, the files differ only in the
places that belong to it. -/
theorem Job.confined_serveAll [Zip.Codecs] (j : Job) {files files' : FileTree}
    (made : files.makeDirectories (.ofText j.out) = (.ok (), files')) (packages : List String)
    {place : Location}
    (changed : (j.serveAll files' packages).2.2.node? place ≠ files.node? place) :
    MadeFor files (j.serveAll files' packages).2.2 j.out place ∨
      ∃ r ∈ (j.serveAll files' packages).1,
        FileFor files (j.serveAll files' packages).2.2 j.out r place := by
  have paves := FileTree.paves_makeDirectories files (.ofText j.out)
  obtain ⟨directory, found⟩ := FileTree.find_makeDirectories made
  rw [made] at paves
  have alters := j.alters_serveAll files' packages
  obtain ⟨out_led, stands, -⟩ := FileTree.find_eq_ok_iff.1 found
  have found_then : (j.serveAll files' packages).2.2.find (.ofText j.out) =
      .ok (directory, .directory) :=
    FileTree.find_eq_ok_iff.2 ⟨alters.directories.leads_iff.2 out_led,
      (alters.directories.directories directory).2 stands, fun other => absurd rfl other⟩
  by_cases later : (j.serveAll files' packages).2.2.node? place = files'.node? place
  · rw [later] at changed
    obtain ⟨free, made_here, way, begins, led⟩ := paves.made place changed
    exact Or.inl ⟨free, later.trans made_here, way, begins, alters.directories.leads_iff.2 led⟩
  · obtain ⟨⟨r, served, named, led⟩, no_directory, no_directory_then⟩ :=
      alters.no_directory later
    refine Or.inr ⟨r, served, named, ⟨directory, found_then, ?_⟩, ?_, no_directory_then⟩
    · exact FileTree.leads_outputPath named out_led led
    · exact fun at_first => no_directory (paves.grows.keeps place _ at_first)

/-- A job that has been done ends with a failure if a package's name is refused. -/
theorem code_of_badName [Zip.Codecs] {j : Job} {files : FileTree} {packages : List String}
    {r : PackageResult} (served : r ∈ (j.serveAll files packages).1)
    (refused : r.outcome = .failed .badName) :
    (Job.report (j.serveAll files packages)).1.code ≠ 0 := by
  have failed : (j.serveAll files packages).1.any (·.outcome.isFailure) = true :=
    List.any_eq_true.2 ⟨r, served, by rw [refused]; rfl⟩
  rw [Job.code_report, failed]
  split <;> decide

/-- A restore that ends with this report and these files has stayed within the directory that
receives files, and has shown a line for each result. -/
structure Confined (files : FileTree) (out : String) (packages : List String)
    (ended : Report × FileTree) (results : List PackageResult) : Prop where
  output : ended.1.output = results.map PackageResult.line
  asked : ∀ r ∈ results, r.package ∈ packages ∧ r.mode ≠ .none
  refused : ∀ r ∈ results, isFileName r.package = false →
    r.outcome = .failed .badName ∧ ended.1.code ≠ 0
  changed : ∀ place, ended.2.node? place ≠ files.node? place →
    MadeFor files ended.2 out place ∨ ∃ r ∈ results, FileFor files ended.2 out r place

namespace Confined

variable {files files' : FileTree} {out : String} {packages : List String}

/-- Where no package has been served, only directories can have been made. -/
theorem of_unserved (failure : Failure)
    (paves : files.Paves files' (PathName.ofText out).isAbsolute
      ((PathName.ofText out).names.filter (· != "."))) :
    Confined files out packages (.ofFailure [] failure, files') [] where
  output := rfl
  asked := fun _ none_served => absurd none_served List.not_mem_nil
  refused := fun _ none_served => absurd none_served List.not_mem_nil
  changed place := by
    intro changed
    obtain ⟨free, directory, led⟩ := paves.made place changed
    exact Or.inl ⟨free, directory, led⟩

theorem of_served [Zip.Codecs] (j : Job)
    (made : files.makeDirectories (.ofText j.out) = (.ok (), files')) :
    Confined files j.out packages (Job.report (j.serveAll files' packages))
      (j.serveAll files' packages).1 where
  output := Job.output_report _
  asked r := by
    intro served
    obtain ⟨listed, some_data, -⟩ := j.package_of_serveAll r served
    exact ⟨listed, some_data⟩
  refused r := by
    intro served bad_name
    obtain ⟨-, -, refused⟩ := j.package_of_serveAll r served
    exact ⟨refused bad_name, code_of_badName served (refused bad_name)⟩
  changed place := by
    rw [Job.files_report]
    exact j.confined_serveAll made packages

end Confined

/-- Whatever packages are asked for, and whatever the archive and the files are, a restore stays
within the directory that receives files.  What differs afterwards are directories made on the way
there, and in it the files `<package>.kv` and `<package>.full` of packages that were asked for,
that the archive has such data for, and whose names are accepted.  Each other file holds what it
did, and no two packages, or kinds of data, have a file in common.  A package whose name is refused
is reported so, and its turn leaves all files alone. -/
theorem restorePackages_confined [Zip.Codecs] (environment : String → Option String)
    (files : FileTree) (s : SourceOptions) (out : String) (token : Option Nat)
    (packages : List String) :
    let ended := restorePackages environment files s out token packages
    let results := restoredPackages environment files s out token packages
    Confined files out packages ended results ∧
    (∀ place content, files.node? place = some (.file content) →
      (∀ r ∈ results, ¬ FileFor files ended.2 out r place) →
        ended.2.node? place = some (.file content)) ∧
    (∀ r ∈ results, ∀ r' ∈ results, ∀ place, FileFor files ended.2 out r place →
      FileFor files ended.2 out r' place → r.package = r'.package ∧ r.mode = r'.mode) ∧
    ∀ (r : Restoring) (d : PackageDescription), isFileName d.package = false →
      r.restorePackage d = (.failed .badName, r) := by
  intro ended results
  have confined : Confined files out packages ended results := by
    rcases restorePackages_cases environment files s out token packages with
      ⟨failure, left, served⟩ | ⟨failure, left, served⟩ | ⟨j, files', rfl, made, left, served⟩
    · simp only [ended, results, left, served]
      exact .of_unserved failure (.refl files _ _)
    · simp only [ended, results, left, served]
      exact .of_unserved failure (FileTree.paves_makeDirectories files (.ofText out))
    · simp only [ended, results, left, served]
      exact .of_served j made
  refine ⟨confined, ?_, ?_, ?_⟩
  · intro place content stood others
    apply Classical.byContradiction
    intro changed
    rw [← stood] at changed
    rcases confined.changed place changed with ⟨free, -, -⟩ | ⟨r, served, for_package⟩
    · rw [free] at stood
      cases stood
    · exact others r served for_package
  · intro r served r' served' place for_first for_second
    exact for_first.package_eq for_second (confined.asked r served).2 (confined.asked r' served').2
  · intro r d bad_name
    simp only [Restoring.restorePackage, bad_name, Bool.not_false, if_true]

end Command
end BackupRestore
