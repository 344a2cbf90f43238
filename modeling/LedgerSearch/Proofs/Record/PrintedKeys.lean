import Mathlib
import LedgerSearch.Proofs.Wire.BigEndian
import LedgerSearch.Record.Account

/-
  Printed keys. Base32 writes every five bytes as eight symbols and loses none of them, so printed
  keys are all of one length, and a printed key tells what it stands for and the key
  (`address_eq_iff`).
-/

namespace LedgerSearch

theorem Block.eq_of_bytes_eq {n : ℕ} {a b : Block n} (h : a.bytes = b.bytes) : a = b := by
  cases a
  cases b
  cases h
  rfl

namespace Text.Base32

theorem symbol_injective {m n : ℕ} (hm : m < 32) (hn : n < 32) (h : symbol m = symbol n) :
    m = n := by
  have hall : ∀ m < 32, ∀ n < 32, symbol m = symbol n → m = n := by decide
  exact hall m hm n hn h

theorem length_symbols (width n : ℕ) : (symbols width n).length = width := by
  induction width generalizing n with
  | zero => rfl
  | succ width ih => rw [symbols, List.length_append, ih, List.length_singleton]

/-- The symbols of a number are its digits. -/
theorem symbols_injective {width m n : ℕ} (hm : m < 32 ^ width) (hn : n < 32 ^ width)
    (h : symbols width m = symbols width n) : m = n := by
  induction width generalizing m n with
  | zero =>
    rw [Nat.pow_zero] at hm hn
    omega
  | succ width ih =>
    rw [Nat.pow_succ] at hm hn
    obtain ⟨hhigh, hlow⟩ := List.append_inj' h rfl
    have hdiv : m / 32 = n / 32 := ih (by omega) (by omega) hhigh
    have hmod : m % 32 = n % 32 :=
      symbol_injective (Nat.mod_lt _ (by decide)) (Nat.mod_lt _ (by decide)) (List.cons.inj hlow).1
    omega

/-- Five bytes are written on their own. -/
theorem exists_block {n : ℕ} {bs : Bytes} (h : bs.length = 5 * (n + 1)) :
    ∃ block rest : Bytes, block.length = 5 ∧ rest.length = 5 * n ∧ bs = block ++ rest ∧
      chars bs = symbols 8 (bigEndianNat block) ++ chars rest := by
  match bs, h with
  | a :: b :: c :: d :: e :: rest, h =>
    refine ⟨[a, b, c, d, e], rest, rfl, ?_, rfl, by rw [chars]⟩
    simp only [List.length_cons] at h
    omega

theorem length_chars {n : ℕ} {bs : Bytes} (h : bs.length = 5 * n) : (chars bs).length = 8 * n := by
  induction n generalizing bs with
  | zero =>
    obtain rfl := List.length_eq_zero_iff.mp h
    rfl
  | succ n ih =>
    obtain ⟨block, rest, -, hrest, -, hchars⟩ := exists_block h
    rw [hchars, List.length_append, length_symbols, ih hrest]
    omega

theorem chars_injective {n : ℕ} {as bs : Bytes} (ha : as.length = 5 * n) (hb : bs.length = 5 * n)
    (h : chars as = chars bs) : as = bs := by
  induction n generalizing as bs with
  | zero => rw [List.length_eq_zero_iff.mp ha, List.length_eq_zero_iff.mp hb]
  | succ n ih =>
    obtain ⟨block, rest, hblock, hrest, rfl, hchars⟩ := exists_block ha
    obtain ⟨block', rest', hblock', hrest', rfl, hchars'⟩ := exists_block hb
    rw [hchars, hchars'] at h
    obtain ⟨hsymbols, htail⟩ :=
      List.append_inj h (by rw [length_symbols, length_symbols])
    have bound (bs : Bytes) (hbs : bs.length = 5) : bigEndianNat bs < 32 ^ 8 := by
      have hlt := bigEndianNat_lt bs
      rwa [hbs] at hlt
    have hnumber := symbols_injective (bound block hblock) (bound block' hblock') hsymbols
    have hsame : block = block' := by
      rw [← bigEndianBytes_bigEndianNat block, hnumber, hblock, ← hblock',
        bigEndianBytes_bigEndianNat]
    rw [hsame, ih hrest hrest' htail]

end Text.Base32

/-! ## Keys -/

theorem length_addressBytes (kind : AddressKind) (key : Block 32) :
    (addressBytes kind key).length = 5 * 7 := by
  unfold addressBytes
  simp [key.length_bytes]

theorem toList_address (kind : AddressKind) (key : Block 32) :
    (address kind key).toList = Text.Base32.chars (addressBytes kind key) := by
  unfold address Text.Base32.encode
  rw [String.toList_ofList]

theorem length_address (kind : AddressKind) (key : Block 32) :
    (address kind key).toList.length = 56 := by
  rw [toList_address, Text.Base32.length_chars (length_addressBytes kind key)]

theorem version_injective : Function.Injective AddressKind.version := by
  intro kind kind'
  cases kind <;> cases kind' <;> decide

theorem address_eq_iff {kind kind' : AddressKind} {key key' : Block 32} :
    address kind key = address kind' key' ↔ kind = kind' ∧ key = key' := by
  constructor
  · intro h
    have hchars := congrArg String.toList h
    rw [toList_address, toList_address] at hchars
    have hbytes := Text.Base32.chars_injective (length_addressBytes kind key)
      (length_addressBytes kind' key') hchars
    obtain ⟨hpayload, -⟩ := List.append_inj' hbytes rfl
    obtain ⟨hversion, hkey⟩ := List.cons.inj hpayload
    exact ⟨version_injective hversion, Block.eq_of_bytes_eq hkey⟩
  · intro h
    rw [h.1, h.2]

namespace AccountId

theorem length_text (a : AccountId) : a.text.toList.length = 56 := length_address .account a.key

theorem text_injective : Function.Injective AccountId.text := by
  intro a b h
  obtain ⟨key⟩ := a
  obtain ⟨key'⟩ := b
  exact congrArg AccountId.mk (address_eq_iff.mp h).2

end AccountId

end LedgerSearch
