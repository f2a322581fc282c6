/-
Module: BackupRestore.Command.List
Purpose: The commands that only look at an archive.
Main exports: listSets, selectPackages, listPackages
-/
import BackupRestore.Command.Source

namespace BackupRestore.Command

/-- The line of a restore set; a star marks the one in use. -/
def setLine (current : Nat) (set : RestoreSet) : String :=
  (if set.token = current then "* " else "  ") ++ toString set.token ++ "\t" ++ set.name ++ "\t" ++
    set.device

/-- The sets that an archive offers. -/
def listSets (environment : String → Option String) (files : FileTree) (s : SourceOptions) :
    Report :=
  match openTransport environment files s with
  | .error failure => .ofFailure [] failure
  | .ok t => { output := t.restoreSets.map (setLine t.currentToken) }

/-- Go through the packages that have data, up to a misuse.  No more can be chosen
than the session was asked for. -/
def selectPackages (t : Transport) (m : Medium) :
    (asked : List String) → List PackageDescription × Option Misuse
  | [] => ([], none)
  | _ :: rest =>
      match t.nextPackage m with
      | (.ok (.package d), t, m) =>
          let (found, misuse) := selectPackages t m rest
          (d :: found, misuse)
      | (.ok .noMorePackages, _) => ([], none)
      | (.error misuse, _) => ([], some misuse)

/-- The line of a package that has data. -/
def packageLine (d : PackageDescription) : String := d.package ++ "\t" ++ d.mode.label

/-- The packages that have data, with how it is stored. -/
def listPackages (environment : String → Option String) (files : FileTree) (s : SourceOptions)
    (packages : List String) : Report :=
  match openTransport environment files s with
  | .error failure => .ofFailure [] failure
  | .ok t =>
      let (_, t, m) := t.start (.ofFile files s.archive) t.currentToken packages
      match selectPackages t m packages with
      | (found, some misuse) => .ofMisuse (found.map packageLine) misuse
      | (found, none) =>
          { output := found.map packageLine
            messages := [toString found.length ++ " package(s) with data"] }

end BackupRestore.Command
