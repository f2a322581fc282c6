/-
Module: BackupRestore.Zip.Directory
Purpose: Finding and reading the directory of a zip archive.
Main exports: DirectoryPlace, placeAt, Listing, Directory, Directory.read, localTail
-/
import BackupRestore.Zip.Entry
import Std.Data.HashMap

namespace BackupRestore.Zip

/-!
The directory is found from the end of the archive: the last end record that
fits and makes sense says where it begins.  Bytes before the archive proper shift
every place by one amount, the archive's offset.  An end record whose directory
cannot be read is passed over for an earlier one.
-/

/-- Where a directory is and how many entries it has. -/
structure DirectoryPlace where
  start : Nat
  archiveOffset : Nat
  entryCount : Nat
deriving Repr, Inhabited, DecidableEq

/-- The number with which the end record begins. -/
def endSignature : Nat := 0x06054B50

/-- The number with which the locator of the long end record begins. -/
def locatorSignature : Nat := 0x07064B50

/-- The number with which the long end record begins. -/
def longEndSignature : Nat := 0x06064B50

/-- The length of the end record without its comment. -/
def endLength : Nat := 22

/-- The length of the locator. -/
def locatorLength : Nat := 20

/-- The length of the long end record without what may be added to it. -/
def longEndLength : Nat := 56

/-- A number of four bytes begins at `position`. -/
def hasSignature (content : Content) (signature position : Nat) : Bool :=
  content[position]? == some (UInt8.ofNat signature) &&
    content.word? position 4 == some signature

/-- The first place from `position` on, among `count` places, where a record
begins with the signature and passes a test. -/
def findForward (c : Content) (signature : Nat) (test : Nat → Bool) :
    (count position : Nat) → Option Nat
  | 0, _ => none
  | count + 1, position =>
      if hasSignature c signature position && test position then some position
      else findForward c signature test count (position + 1)

/-- A long end record fits its locator, which stands at `locator` and says which
disk holds the directory. -/
def fitsLocator (c : Content) (locator disk position : Nat) : Bool :=
  match c.block? position longEndLength with
  | none => false
  | some block =>
      let size := fieldAt block 4 8
      44 ≤ size && size + 12 == locator - position && fieldAt block 20 4 == disk &&
        fieldAt block 32 8 * entryBlockLength + fieldAt block 48 8 ≤ position

/-- What an end record says of the directory: nothing of use, or where it is, or
why it cannot be read. -/
abbrev PlaceAnswer := Option (Except ArchiveError DirectoryPlace)

/-- The place according to the long end record at `position`. -/
def longPlace (c : Content) (stated position : Nat) : PlaceAnswer :=
  match c.block? position longEndLength with
  | none => none
  | some block =>
      let archiveOffset := position - stated
      let onThisDisk := fieldAt block 24 8
      let total := fieldAt block 32 8
      if total < onThisDisk then some (.error .invalidArchive)
      else if fieldAt block 16 4 ≠ fieldAt block 20 4 then some (.error .unsupportedArchive)
      else
        some (.ok { start := fieldAt block 48 8 + archiveOffset, archiveOffset, entryCount := total })

/-- The place according to the locator at `locator`. -/
def locatedPlace (c : Content) (locator : Nat) : PlaceAnswer :=
  match c.block? locator locatorLength with
  | none => none
  | some block =>
      let disk := fieldAt block 4 4
      let stated := fieldAt block 8 8
      if locator ≤ stated ∨ 1 < fieldAt block 16 4 then none
      else
        match findForward c longEndSignature (fitsLocator c locator disk)
            (locator - stated) stated with
        | none => none
        | some position => longPlace c stated position

/-- The place according to the short end record at `position`. -/
def shortPlace (c : Content) (block : List UInt8) (position : Nat) : PlaceAnswer :=
  let stated := fieldAt block 16 4
  let archiveOffset? :=
    if fieldAt block 10 2 = 0 then some (position - stated)
    else if position ≤ stated then none
    else
      (findForward c entrySignature (fun _ => true) (position - stated) stated).map (· - stated)
  match archiveOffset? with
  | none => none
  | some archiveOffset =>
      if fieldAt block 4 2 ≠ fieldAt block 6 2 then some (.error .unsupportedArchive)
      else
        some (.ok { start := stated + archiveOffset, archiveOffset, entryCount := fieldAt block 8 2 })

/-- The place according to the end record at `position`. -/
def placeAt (c : Content) (position : Nat) : PlaceAnswer :=
  match c.block? position endLength with
  | none => none
  | some block =>
      if c.size < position + endLength + fieldAt block 20 2 then none
      else if (fieldAt block 10 2 = 0xFFFF ∨ fieldAt block 16 4 = overflowMark) ∧
          locatorLength ≤ position ∧ hasSignature c locatorSignature (position - locatorLength) then
        locatedPlace c (position - locatorLength)
      else shortPlace c block position

/-- The entries of a directory, each name once: a later entry takes the place of
an earlier one with its name. -/
structure Listing where
  entries : Array Entry := #[]
  places : Std.HashMap String Nat := {}

/-- Add an entry. -/
def Listing.insert (l : Listing) (e : Entry) : Listing :=
  match l.places[e.name]? with
  | some place => { l with entries := l.entries.setIfInBounds place e }
  | none => { entries := l.entries.push e, places := l.places.insert e.name l.entries.size }

/-- Read `count` entries from a place on. -/
def readEntries (c : Content) (archiveOffset : Nat) :
    (count start : Nat) → Listing → Except ArchiveError (Array Entry)
  | 0, _, listing => .ok listing.entries
  | count + 1, start, listing =>
      match Entry.read c archiveOffset start with
      | .error e => .error e
      | .ok (entry, next) => readEntries c archiveOffset count next (listing.insert entry)

/-- The entries of an archive, in the order of the directory. -/
structure Directory where
  entries : Array Entry
deriving Repr, Inhabited, DecidableEq

namespace Directory

/-- The directory that an end record leads to, if it leads anywhere. -/
def ofEndRecord (c : Content) (position : Nat) : Option (Except ArchiveError Directory) :=
  match placeAt c position with
  | none => none
  | some (.error e) => some (.error e)
  | some (.ok place) =>
      match readEntries c place.archiveOffset place.entryCount place.start {} with
      | .error e => some (.error e)
      | .ok entries => some (.ok { entries })

/-- Try the end records that begin before `bound`, the last one first.  If none
leads to a directory, the failure is the one met last. -/
def search (c : Content) (failure : ArchiveError) : (bound : Nat) → Except ArchiveError Directory
  | 0 => .error failure
  | position + 1 =>
      if hasSignature c endSignature position then
        match ofEndRecord c position with
        | none => search c failure position
        | some (.error e) => search c e position
        | some (.ok directory) => .ok directory
      else search c failure position

/-- The directory of an archive. -/
def read (c : Content) : Except ArchiveError Directory :=
  search c .invalidArchive c.size

end Directory

/-- The length of the header that precedes an entry's data, without its name and
extra fields. -/
def localHeaderLength : Nat := 30

/-- The number with which that header begins. -/
def localSignature : Nat := 0x04034B50

/-- How many bytes of name and extra fields follow such a header. -/
def localTail (header : List UInt8) : Nat := fieldAt header 26 2 + fieldAt header 28 2

end BackupRestore.Zip
