/-
Module: BackupRestore.Bytes.Checksum
Purpose: The cyclic redundancy check of zip entries.
Main exports: crc32
-/

namespace BackupRestore

/-!
The check is the remainder of a division of polynomials over two elements.
The dividend is read lowest bit first, so the divisor appears with its bits
reversed, `0xEDB88320`; the register starts as ones and is inverted at the end.
-/

/-- Move the register on by one bit. -/
def crcShift (register : UInt32) : UInt32 :=
  if register &&& 1 = 1 then (register >>> 1) ^^^ 0xEDB88320 else register >>> 1

/-- Move the register on by one byte. -/
def crcByte (register : UInt32) (byte : UInt8) : UInt32 :=
  let r := register ^^^ byte.toUInt32
  crcShift (crcShift (crcShift (crcShift (crcShift (crcShift (crcShift (crcShift r)))))))

/-- The cyclic redundancy check of some bytes. -/
def crc32 (bytes : List UInt8) : UInt32 :=
  bytes.foldl crcByte 0xFFFFFFFF ^^^ 0xFFFFFFFF

end BackupRestore
