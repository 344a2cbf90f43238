import Mathlib
import LedgerSearch.Bytes

/-
  Big-endian numbers: reading back the digits that were written gives the number, cut to the width, and
  writing the number that was read gives its digits.
-/

namespace LedgerSearch

theorem bigEndianNat_append_singleton (bs : Bytes) (b : UInt8) :
    bigEndianNat (bs ++ [b]) = bigEndianNat bs * 256 + b.toNat := by
  simp [bigEndianNat]

theorem bigEndianNat_bigEndianBytes (width n : Nat) :
    bigEndianNat (bigEndianBytes width n) = n % 256 ^ width := by
  induction width generalizing n with
  | zero => simp [bigEndianBytes, bigEndianNat, Nat.mod_one]
  | succ width ih =>
    have split : n % 256 ^ (width + 1) = n % 256 + 256 * (n / 256 % 256 ^ width) := by
      rw [Nat.pow_succ, Nat.mul_comm (256 ^ width) 256, Nat.mod_mul]
    rw [bigEndianBytes, bigEndianNat_append_singleton, ih, split, UInt8.toNat_ofNat']
    omega

theorem bigEndianNat_lt (bs : Bytes) : bigEndianNat bs < 256 ^ bs.length := by
  induction bs using List.reverseRecOn with
  | nil => decide
  | append_singleton bs b ih =>
    have hb : b.toNat < 256 := b.toNat_lt
    rw [bigEndianNat_append_singleton, List.length_append, List.length_singleton, Nat.pow_succ]
    omega

/-- Bytes are the digits of the number they spell. -/
theorem bigEndianBytes_bigEndianNat (bs : Bytes) :
    bigEndianBytes bs.length (bigEndianNat bs) = bs := by
  induction bs using List.reverseRecOn with
  | nil => rfl
  | append_singleton bs b ih =>
    have hb : b.toNat < 256 := b.toNat_lt
    have hhigh : (bigEndianNat bs * 256 + b.toNat) / 256 = bigEndianNat bs := by omega
    have hlow : UInt8.ofNat (bigEndianNat bs * 256 + b.toNat) = b := by
      apply UInt8.toNat_inj.mp
      rw [UInt8.toNat_ofNat']
      omega
    rw [bigEndianNat_append_singleton, List.length_append, List.length_singleton, bigEndianBytes,
      hhigh, ih, hlow]

/-- Only the last `width` digits of a number are written. -/
theorem bigEndianBytes_mod (width n : Nat) :
    bigEndianBytes width (n % 256 ^ width) = bigEndianBytes width n := by
  have h := bigEndianBytes_bigEndianNat (bigEndianBytes width n)
  rwa [length_bigEndianBytes, bigEndianNat_bigEndianBytes] at h

/-- The high digits of a number, then the low ones. -/
theorem bigEndianBytes_add (high low n : Nat) :
    bigEndianBytes (high + low) n =
      bigEndianBytes high (n / 256 ^ low) ++ bigEndianBytes low n := by
  induction low generalizing n with
  | zero => simp [bigEndianBytes]
  | succ low ih =>
    have hdiv : n / 256 / 256 ^ low = n / 256 ^ (low + 1) := by
      rw [Nat.div_div_eq_div_mul, Nat.pow_succ, Nat.mul_comm]
    rw [← Nat.add_assoc, bigEndianBytes, bigEndianBytes, ih, hdiv, List.append_assoc]

end LedgerSearch
