/-
Module: BackupRestore.Medium
Purpose: The place that holds an archive, and the handles through which it is read.
Main exports: ReadFate, Delivery, Delivery.read, Delivery.fill, Handle, Medium, Medium.openHandle,
  Medium.release, Medium.seek, Medium.read, Medium.fill
-/
import BackupRestore.Bytes.Words
import BackupRestore.IoError

namespace BackupRestore

/-!
A medium holds the bytes of an archive, or reports why it cannot be opened.  It
hands out any number of handles, each with a place of its own, and keeps count
of those that have not been released.  Any sequence of opens may be refused.

What a read brings is decided by the medium's `Delivery`: a read may be
interrupted, may bring less than was asked for, or may fail.  A reader that
needs a number of bytes repeats its reads (`fill`); it cannot tell in how many
pieces they came.
-/

/-- What becomes of one read. -/
inductive ReadFate where
  /-- The read is interrupted before it brings anything. -/
  | interrupted
  /-- The read brings at most `extra + 1` bytes. -/
  | atMost (extra : Nat)
  /-- The read fails. -/
  | failed (cause : IoError)
deriving Repr, Inhabited, DecidableEq

/-- How a medium answers its coming reads. -/
structure Delivery where
  /-- What becomes of the next reads, one after the other. -/
  fates : List ReadFate := []
  /-- Set while every read fails. -/
  blocked : Option IoError := none
  /-- The most that a read brings, beyond one byte, if there is a bound. -/
  extraAtMost : Option Nat := none
deriving Repr, Inhabited, DecidableEq

/-- What one read gives. -/
inductive ReadAnswer where
  | moved (count : Nat)
  | interrupted
  | failed (cause : IoError)
deriving Repr, Inhabited, DecidableEq

namespace Delivery

/-- How many of `wanted` bytes a read without trouble moves. -/
def portion (d : Delivery) (wanted : Nat) : Nat :=
  match d.extraAtMost with
  | none => wanted
  | some extra => min wanted (extra + 1)

/-- One read for `wanted` bytes where `available` are left. -/
def read (d : Delivery) (available wanted : Nat) : ReadAnswer × Delivery :=
  match d.blocked with
  | some cause => (.failed cause, d)
  | none =>
      match d.fates with
      | [] => (.moved (d.portion (min wanted available)), d)
      | .interrupted :: fates => (.interrupted, { d with fates })
      | .atMost extra :: fates =>
          (.moved (min (extra + 1) (d.portion (min wanted available))), { d with fates })
      | .failed cause :: fates => (.failed cause, { d with fates })

theorem read_moved_pos {d d' : Delivery} {available wanted n : Nat}
    (h : d.read available wanted = (.moved n, d')) (ha : 0 < available) (hw : 0 < wanted) :
    0 < n := by
  unfold read portion at h
  repeat' split at h
  all_goals simp only [Prod.mk.injEq, ReadAnswer.moved.injEq, reduceCtorEq, false_and] at h
  all_goals omega

theorem read_moved_le {d d' : Delivery} {available wanted n : Nat}
    (h : d.read available wanted = (.moved n, d')) : n ≤ wanted ∧ n ≤ available := by
  unfold read portion at h
  repeat' split at h
  all_goals simp only [Prod.mk.injEq, ReadAnswer.moved.injEq, reduceCtorEq, false_and] at h
  all_goals omega

theorem read_interrupted_fates {d d' : Delivery} {available wanted : Nat}
    (h : d.read available wanted = (.interrupted, d')) : d'.fates.length < d.fates.length := by
  unfold read at h
  repeat' split at h
  all_goals simp_all only [Prod.mk.injEq, reduceCtorEq, false_and]
  obtain ⟨-, rfl⟩ := h
  simp

theorem read_fates_le {d d' : Delivery} {available wanted : Nat} {answer : ReadAnswer}
    (h : d.read available wanted = (answer, d')) : d'.fates.length ≤ d.fates.length := by
  unfold read at h
  repeat' split at h
  all_goals simp_all only [Prod.mk.injEq]
  all_goals obtain ⟨-, rfl⟩ := h
  all_goals simp_all

/-- Repeat a read until it is not interrupted. -/
def readOn (d : Delivery) (available wanted : Nat) : Except IoError Nat × Delivery :=
  match h : d.read available wanted with
  | (.moved n, d') => (.ok n, d')
  | (.failed cause, d') => (.error cause, d')
  | (.interrupted, d') =>
      have := read_interrupted_fates h
      d'.readOn available wanted
termination_by d.fates.length

theorem readOn_le {d d' : Delivery} {available wanted n : Nat}
    (h : d.readOn available wanted = (.ok n, d')) : n ≤ wanted ∧ n ≤ available := by
  fun_induction readOn d available wanted with
  | case1 d n' d₁ hr =>
    simp only [Prod.mk.injEq, Except.ok.injEq] at h
    exact h.1 ▸ read_moved_le hr
  | case2 d cause d₁ hr => simp at h
  | case3 d d₁ hr _ ih => exact ih h

/-- Repeat reads until `wanted` bytes have come or none is left.  Gives how many
have come, and the failure that ended the reading, if one did. -/
def fill (d : Delivery) (available wanted : Nat) : Nat × Option IoError × Delivery :=
  if _hw : wanted = 0 then (0, none, d)
  else
    match h : d.read available wanted with
    | (.failed cause, d') => (0, some cause, d')
    | (.interrupted, d') =>
        have := read_interrupted_fates h
        d'.fill available wanted
    | (.moved n, d') =>
        if _hn : n = 0 then (0, none, d')
        else
          have := read_fates_le h
          let (more, failure, d'') := d'.fill (available - n) (wanted - n)
          (n + more, failure, d'')
termination_by wanted + d.fates.length
decreasing_by
  all_goals omega

end Delivery

/-- A place in the bytes of a medium from which they are read. -/
structure Handle where
  content : Content
  position : Nat := 0

namespace Handle

/-- How many bytes lie before the end. -/
def available (h : Handle) : Nat := h.content.size - h.position

/-- The next `n` bytes, as far as there are any. -/
def upcoming (h : Handle) (n : Nat) : List UInt8 :=
  h.content.slice h.position (h.position + n)

/-- The handle further on. -/
def advance (h : Handle) (n : Nat) : Handle := { h with position := h.position + n }

/-- The handle at a place. -/
def moveTo (h : Handle) (position : Nat) : Handle := { h with position }

end Handle

/-- The place that holds an archive. -/
structure Medium where
  /-- The bytes that an open finds, or why it finds none. -/
  content : Except IoError Content
  /-- The farthest place that can be sought, if there is one. -/
  reach : Option Nat := none
  delivery : Delivery := {}
  /-- Set while every open is refused. -/
  refusal : Option IoError := none
  /-- What becomes of the next opens, one after the other: why one is refused, if it is. -/
  openFates : List (Option IoError) := []
  /-- Set while the opens behind those are refused: how many beyond one, and why. -/
  refusedNext : Option (Nat × IoError) := none
  /-- How many opens have succeeded. -/
  opens : Nat := 0
  /-- How many handles are open. -/
  live : Nat := 0

namespace Medium

/-- The medium that holds some bytes and gives no trouble. -/
def ofContent (content : Content) : Medium := { content := .ok content }

/-- The farthest place in a file that can be sought: files have up to `2 ^ 32 - 1`
blocks of 4096 bytes. -/
def fileReach : Nat := 0xFFFFFFFF * 4096

/-- The bytes as they are described to a reader of messages. -/
def describeContent (content : Content) : String :=
  "memory (" ++ toString content.size ++ " bytes)"

/-- The bytes as they are shown when a program is examined. -/
def inspectContent (content : Content) : String :=
  "MemoryArchive \x7b len: " ++ toString content.size ++ " \x7d"

/-- What is planned for the next open, and the medium behind it. -/
def takeOpenFate (m : Medium) : Option IoError × Medium :=
  match m.openFates, m.refusedNext with
  | fate :: openFates, _ => (fate, { m with openFates })
  | [], none => (none, m)
  | [], some (0, cause) => (some cause, { m with refusedNext := none })
  | [], some (more + 1, cause) => (some cause, { m with refusedNext := some (more, cause) })

/-- Open a fresh handle at the beginning. -/
def openHandle (m : Medium) : Except IoError Handle × Medium :=
  match m.takeOpenFate with
  | (planned, m) =>
      match m.refusal.or planned, m.content with
      | some cause, _ => (.error cause, m)
      | none, .error cause => (.error cause, m)
      | none, .ok content =>
          (.ok { content }, { m with opens := m.opens + 1, live := m.live + 1 })

/-- Give a handle back. -/
def release (m : Medium) : Medium := { m with live := m.live - 1 }

/-- A handle at another place.  The place may lie behind the last byte, where nothing is
left to read, but not out of reach. -/
def seek (m : Medium) (h : Handle) (position : Nat) : Except IoError Handle :=
  if m.reach.any (· < position) then .error .placeOutOfReach else .ok (h.moveTo position)

/-- One read of at most `wanted` bytes, repeated while it is interrupted. -/
def read (m : Medium) (h : Handle) (wanted : Nat) :
    Except IoError (List UInt8) × Handle × Medium :=
  match m.delivery.readOn h.available wanted with
  | (.ok n, delivery) => (.ok (h.upcoming n), h.advance n, { m with delivery })
  | (.error cause, delivery) => (.error cause, h, { m with delivery })

/-- Read until `wanted` bytes have come or none is left.  The bytes that came
before a failure are given together with it. -/
def fill (m : Medium) (h : Handle) (wanted : Nat) :
    List UInt8 × Option IoError × Handle × Medium :=
  let (n, failure, delivery) := m.delivery.fill h.available wanted
  (h.upcoming n, failure, h.advance n, { m with delivery })

theorem length_upcoming (h : Handle) (n : Nat) :
    (h.upcoming n).length = min n h.available := by
  simp only [Handle.upcoming, Handle.available, Content.slice, Array.length_toList,
    Array.size_extract]
  omega

theorem length_read_le {m m' : Medium} {h h' : Handle} {wanted : Nat} {bytes : List UInt8}
    (hr : m.read h wanted = (.ok bytes, h', m')) : bytes.length ≤ wanted := by
  unfold read at hr
  split at hr
  · rename_i n delivery hn
    simp only [Prod.mk.injEq, Except.ok.injEq] at hr
    have := (Delivery.readOn_le hn).1
    rw [← hr.1, length_upcoming]
    omega
  · simp at hr

/-- What has been read is no longer available. -/
theorem available_fill (m : Medium) (h : Handle) (wanted : Nat) :
    (m.fill h wanted).2.2.1.available + (m.fill h wanted).1.length = h.available := by
  simp only [fill, length_upcoming, Handle.advance, Handle.available]
  omega

theorem fill_zero (m : Medium) (h : Handle) : (m.fill h 0).1 = [] := by
  have : (m.delivery.fill h.available 0).1 = 0 := by
    rw [Delivery.fill]
    simp
  have := length_upcoming h (m.delivery.fill h.available 0).1
  simp_all [fill]

/-- Read exactly `wanted` bytes. -/
def readExactly (m : Medium) (h : Handle) (wanted : Nat) :
    Except IoError (List UInt8) × Handle × Medium :=
  match m.fill h wanted with
  | (_, some cause, h, m) => (.error cause, h, m)
  | (bytes, none, h, m) =>
      if bytes.length = wanted then (.ok bytes, h, m) else (.error .cutShort, h, m)

theorem available_readExactly_le (m : Medium) (h : Handle) (wanted : Nat) :
    (m.readExactly h wanted).2.1.available ≤ h.available := by
  have := available_fill m h wanted
  unfold readExactly
  split
  · simp_all only
    omega
  · split <;> simp_all only <;> omega

/-- Read everything from the beginning on. -/
def load (m : Medium) (h : Handle) : Except IoError Content × Medium :=
  let start := h.moveTo 0
  match m.delivery.fill start.available start.available with
  | (_, some cause, delivery) => (.error cause, { m with delivery })
  | (n, none, delivery) => (.ok (h.content.extract 0 n), { m with delivery })

end Medium

end BackupRestore
