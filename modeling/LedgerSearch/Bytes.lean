/-
  Bytes, blocks of a known number of bytes, and big-endian numbers.
-/

namespace LedgerSearch

/-- A run of bytes, first byte first. -/
abbrev Bytes := List UInt8

/-- Exactly `n` bytes. -/
structure Block (n : Nat) where
  bytes : Bytes
  length_bytes : bytes.length = n
deriving DecidableEq

/-- A 32-byte hash. -/
abbrev Hash := Block 32

/-- A block of one byte repeated. -/
def Block.fill (n : Nat) (b : UInt8) : Block n :=
  ⟨List.replicate n b, List.length_replicate⟩

/-- The first `n` bytes of `bs`, followed by zeros where `bs` is shorter. -/
def Block.ofBytes (n : Nat) (bs : Bytes) : Block n :=
  ⟨(bs ++ List.replicate n 0).take n, by simp⟩

/-- The bytes as a block, if there are `n` of them. -/
def Block.ofBytes? (n : Nat) (bs : Bytes) : Option (Block n) :=
  if h : bs.length = n then some ⟨bs, h⟩ else none

/-- The number a run of bytes spells, most significant byte first. -/
def bigEndianNat (bs : Bytes) : Nat :=
  bs.foldl (fun n b => n * 256 + b.toNat) 0

/-- The last `width` base-256 digits of `n`, most significant first. -/
def bigEndianBytes : Nat → Nat → Bytes
  | 0, _ => []
  | width + 1, n => bigEndianBytes width (n / 256) ++ [UInt8.ofNat n]

theorem length_bigEndianBytes (width n : Nat) : (bigEndianBytes width n).length = width := by
  induction width generalizing n with
  | zero => rfl
  | succ width ih => simp [bigEndianBytes, ih]

/-- A `n`-byte block holding `value`, big-endian. -/
def Block.ofNat (n value : Nat) : Block n :=
  ⟨bigEndianBytes n value, length_bigEndianBytes n value⟩

end LedgerSearch
