import LedgerSearch.Bytes

/-
  The 16-bit cyclic redundancy check with polynomial x^16 + x^12 + x^5 + 1, from zero.
-/

namespace LedgerSearch.Digest.Crc16

/-- One bit shifted out of the register, the polynomial subtracted if it was set. -/
def shift (r : UInt16) : UInt16 :=
  if r &&& 0x8000 = 0 then r <<< 1 else (r <<< 1) ^^^ 0x1021

/-- One byte goes into the high end of the register, then eight shifts. -/
def step (r : UInt16) (b : UInt8) : UInt16 :=
  Nat.repeat shift 8 (r ^^^ (b.toUInt16 <<< 8))

/-- The checksum of `bs`. -/
def checksum (bs : Bytes) : UInt16 := bs.foldl step 0

end LedgerSearch.Digest.Crc16
