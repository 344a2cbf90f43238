import LedgerSearch.Digest.Crc16
import LedgerSearch.Text.Base32

/-
  The printed form of a 32-byte key: a version byte that fixes the first letter, the key, and a
  checksum, in base32.
-/

namespace LedgerSearch

/-- What a printed key stands for. -/
inductive AddressKind where
  | account
  | preAuthTx
  | hashX
deriving DecidableEq

/-- The first byte of the address, which settles its first letter: `G`, `T` or `X`. -/
def AddressKind.version : AddressKind → UInt8
  | .account => 48
  | .preAuthTx => 152
  | .hashX => 184

/-- The version, the key and its checksum, low byte first. -/
def addressBytes (kind : AddressKind) (key : Block 32) : Bytes :=
  let payload := kind.version :: key.bytes
  let sum := Digest.Crc16.checksum payload
  payload ++ [sum.toUInt8, (sum >>> 8).toUInt8]

/-- The printed form of a key. -/
def address (kind : AddressKind) (key : Block 32) : String :=
  Text.Base32.encode (addressBytes kind key)

end LedgerSearch
