/-
Module: BackupRestore.Record
Purpose: Restored records and the frames in which they are written.
Main exports: Record, Record.magic, Record.headerBlock, Record.dataBlock, Record.frame
-/
import BackupRestore.Bytes.Words

namespace BackupRestore

/-!
A frame is, in this order: the magic number, the length of the key and the
length of the value, four bytes each and the lowest byte first; the key, a zero
byte and zeros up to a multiple of four; the value and zeros up to a multiple
of four.
-/

/-- One key with its value. -/
structure Record where
  key : List UInt8
  value : List UInt8
deriving Repr, Inhabited, DecidableEq

namespace Record

/-- The number with which every frame begins; its bytes spell `Data`. -/
def magic : Nat := 0x61746144

/-- The length of a frame's fixed beginning. -/
def headerLength : Nat := 12

/-- The longest key that a reader accepts. -/
def maxKeyLength : Nat := 64 * 1024

/-- The longest value that a reader accepts. -/
def maxValueLength : Nat := 256 * 1024 * 1024

/-- Lengths in a header are below this bound. -/
def lengthBound : Nat := 0x100000000

/-- How many bytes fill up a block of `n` bytes to a multiple of four. -/
def padLength (n : Nat) : Nat := (4 - n % 4) % 4

theorem padLength_dvd (n : Nat) : (n + padLength n) % 4 = 0 := by
  unfold padLength
  omega

/-- The zeros that fill up a block of `n` bytes. -/
def padding (n : Nat) : List UInt8 := List.replicate (padLength n) 0

/-- The fixed beginning of a frame. -/
def fixedHeader (keyLength valueLength : Nat) : List UInt8 :=
  littleEndian 4 magic ++ littleEndian 4 keyLength ++ littleEndian 4 valueLength

/-- Everything in a frame that stands before the value. -/
def headerBlock (key : List UInt8) (valueLength : Nat) : List UInt8 :=
  fixedHeader key.length valueLength ++ key ++ 0 :: padding (key.length + 1)

/-- The value in a frame, filled up. -/
def dataBlock (value : List UInt8) : List UInt8 :=
  value ++ padding value.length

/-- The frame of a record. -/
def frame (r : Record) : List UInt8 :=
  headerBlock r.key r.value.length ++ dataBlock r.value

end Record

end BackupRestore
