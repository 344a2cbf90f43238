import Mathlib
import LedgerSearch.Token

/-
  Paging tokens as numbers. Packing places the fields side by side, so that a token is read back
  from its packed value (`unpack_pack`) and from the decimal numeral of that value
  (`parse_text_pack`), and one token is packed below another where its number is smaller.
-/

namespace LedgerSearch

/-! ## Decimal numerals -/

namespace Text.Numeral

theorem ofDigitChars_le (cs : List Char) (n : Nat) : n ≤ Nat.ofDigitChars 10 cs n := by
  induction cs generalizing n with
  | nil => simp
  | cons c cs ih =>
    rw [Nat.ofDigitChars_cons]
    exact Nat.le_trans (by omega) (ih _)

/-- Digits are read as the number they spell, if that number fits the word. -/
theorem digits_eq_ofDigitChars (size n : Nat) (cs : List Char) (hd : ∀ c ∈ cs, c.isDigit)
    (hs : Nat.ofDigitChars 10 cs n < size) :
    digits size n cs = .ok (Nat.ofDigitChars 10 cs n) := by
  induction cs generalizing n with
  | nil => simp [digits]
  | cons c cs ih =>
    have hc : '0' ≤ c ∧ c ≤ '9' := by
      have := hd c (by simp)
      simp only [Char.isDigit, Bool.and_eq_true, decide_eq_true_eq] at this
      exact this
    have he : n * 10 + (c.toNat - 48) = 10 * n + (c.toNat - '0'.toNat) := by
      rw [Nat.mul_comm]; rfl
    rw [Nat.ofDigitChars_cons] at hs ⊢
    have hm : n * 10 + (c.toNat - 48) < size := by
      rw [he]; exact Nat.lt_of_le_of_lt (ofDigitChars_le cs _) hs
    rw [digits, if_pos hc]
    dsimp only
    rw [if_pos hm, he]
    exact ih _ (fun d hd' => hd d (List.mem_cons_of_mem _ hd')) hs

/-- The numeral of a number of the word reads back as that number. -/
theorem parse_toString (size n : Nat) (h : n < size) : parse size (toString n) = .ok n := by
  have hl : (toString n).toList = Nat.toDigits 10 n := Nat.toList_repr
  have hd : ∀ c ∈ Nat.toDigits 10 n, c.isDigit := fun c hc =>
    Nat.isDigit_of_mem_toDigits (by decide) (by decide) hc
  have hp : '+' ∉ Nat.toDigits 10 n := fun hc => absurd (hd _ hc) (by decide)
  have hr : digits size 0 (Nat.toDigits 10 n) = .ok n := by
    rw [digits_eq_ofDigitChars size 0 _ hd (by simpa using h), Nat.ofDigitChars_ten_toDigits]
  unfold parse
  rw [hl]
  split
  · next he => exact absurd he Nat.toDigits_ne_nil
  · next he => simp [he] at hp
  · next he => simp [he] at hp
  · exact hr

end Text.Numeral

/-! ## Tokens -/

namespace Token

/-- The fields side by side, before the sum is taken as a 64-bit word. -/
def number (t : Token) : Nat :=
  (((t.ledger.toNat * 256 + t.transaction.toNat) * 256 + t.operation.toNat) * 256 +
    t.group.toNat) * 256 + t.index.toNat

theorem number_lt (t : Token) : t.number < UInt64.size := by
  have := t.ledger.toNat_lt
  have := t.transaction.toNat_lt
  have := t.operation.toNat_lt
  have := t.group.toNat_lt
  have := t.index.toNat_lt
  unfold number UInt64.size
  omega

theorem toNat_pack (t : Token) : t.pack.toNat = t.number := by
  show (UInt64.ofNat t.number).toNat = t.number
  rw [UInt64.toNat_ofNat', Nat.mod_eq_of_lt (number_lt t)]

theorem pack_lt_pack_iff (s t : Token) : s.pack < t.pack ↔ s.number < t.number := by
  rw [UInt64.lt_iff_toNat_lt, toNat_pack, toNat_pack]

theorem unpack_pack (t : Token) : unpack t.pack = t := by
  have hl := t.ledger.toNat_lt
  have ht := t.transaction.toNat_lt
  have ho := t.operation.toNat_lt
  have hg := t.group.toNat_lt
  have hi := t.index.toNat_lt
  have word (w : UInt8) (n : Nat) (h : n % 256 = w.toNat) : UInt8.ofNat n = w := by
    rw [← UInt8.toNat_inj, UInt8.toNat_ofNat']; exact h
  have ledger (n : Nat) (h : n = t.ledger.toNat) : UInt32.ofNat n = t.ledger := by
    rw [h, UInt32.ofNat_toNat]
  unfold unpack
  rw [toNat_pack]
  unfold number
  rw [ledger, word t.transaction, word t.operation, word t.group, word t.index]
  all_goals omega

/-- The id of a document reads back as the packed token. -/
theorem parse_text_pack (t : Token) :
    Text.Numeral.parse UInt64.size t.text = .ok t.pack.toNat :=
  Text.Numeral.parse_toString _ _ t.pack.toNat_lt

theorem text_injective {s t : Token} (h : s.text = t.text) : s = t := by
  have hs := parse_text_pack s
  rw [h, parse_text_pack] at hs
  rw [← unpack_pack s, ← unpack_pack t, UInt64.toNat_inj.mp (Except.ok.inj hs)]

end Token

end LedgerSearch
