import Mathlib
import LedgerSearch.Bulk
import LedgerSearch.Proofs.Bulk.JsonText
import LedgerSearch.Proofs.Token.Number

/-
  Tokens in the order of their packed numbers. Each 64-bit number is the packed form of exactly one
  token (`pack_unpack`), tokens compare field by field as these numbers do (`compare_eq`), and a
  token is read back from its numeral, bare or as a JSON string.
-/

namespace LedgerSearch

/-- A text that holds one written string is read as that string. -/
theorem Json.parse?_string (s : String) : parse? (Json.string s).text = some (.string s) := by
  have htext : (Json.string s).text.toList = stringChars s ++ [] := by
    rw [text, chars, String.toList_ofList, List.append_nil]
  have hvalue (fuel : ℕ) :
      value? (fuel + 2) maxDepth (stringChars s ++ []) = some (.string s, []) :=
    value?_string (fuel + 1) maxDepth s []
  unfold parse?
  dsimp only
  rw [htext, hvalue]
  rfl

namespace Token

/-! ## Packing -/

/-- The fields of a token are the parts of its number between the powers of 256. -/
theorem pack_unpack (v : UInt64) : (unpack v).pack = v := by
  have hv : v.toNat < 2 ^ 64 := v.toNat_lt
  rw [← UInt64.toNat_inj, toNat_pack, number]
  simp only [unpack, UInt32.toNat_ofNat', UInt8.toNat_ofNat']
  omega

/-- A field joined bit by bit to the number that stands next to it, `k` bits from the end. -/
theorem or_field (k n : ℕ) {a : ℕ} (h : a < 2 ^ 8) :
    n * 2 ^ (k + 8) ||| a * 2 ^ k = (n * 2 ^ 8 + a) * 2 ^ k := by
  have hlt : a * 2 ^ k < 2 ^ (k + 8) := by
    rw [Nat.pow_add, Nat.mul_comm (2 ^ k)]
    exact Nat.mul_lt_mul_of_pos_right h (Nat.two_pow_pos k)
  rw [Nat.mul_comm n, ← Nat.two_pow_add_eq_or_of_lt hlt]
  ring

/-- The fields do not overlap, so that packing them may as well go bit by bit. -/
theorem pack_eq_or (t : Token) :
    t.pack = t.ledger.toUInt64 <<< 32 ||| t.transaction.toUInt64 <<< 24 |||
      t.operation.toUInt64 <<< 16 ||| t.group.toUInt64 <<< 8 ||| t.index.toUInt64 := by
  have shift (n k : ℕ) (h : n * 2 ^ k < 2 ^ 64) : n <<< k % 2 ^ 64 = n * 2 ^ k := by
    rw [Nat.shiftLeft_eq, Nat.mod_eq_of_lt h]
  have hl : t.ledger.toNat < 2 ^ 32 := t.ledger.toNat_lt
  have ht : t.transaction.toNat < 2 ^ 8 := t.transaction.toNat_lt
  have ho : t.operation.toNat < 2 ^ 8 := t.operation.toNat_lt
  have hg : t.group.toNat < 2 ^ 8 := t.group.toNat_lt
  have hi : t.index.toNat < 2 ^ 8 := t.index.toNat_lt
  rw [← UInt64.toNat_inj, toNat_pack]
  simp only [UInt64.toNat_or, UInt64.toNat_shiftLeft, UInt32.toNat_toUInt64, UInt8.toNat_toUInt64]
  calc t.number
      = (((t.ledger.toNat * 2 ^ 8 + t.transaction.toNat) * 2 ^ 8 + t.operation.toNat) * 2 ^ 8 +
          t.group.toNat) * 2 ^ 8 + t.index.toNat := rfl
    _ = t.ledger.toNat * 2 ^ 32 ||| t.transaction.toNat * 2 ^ 24 ||| t.operation.toNat * 2 ^ 16 |||
          t.group.toNat * 2 ^ 8 ||| t.index.toNat := by
        rw [or_field 24 _ ht, or_field 16 _ ho, or_field 8 _ hg,
          Nat.mul_comm (_ + t.group.toNat), Nat.two_pow_add_eq_or_of_lt hi]
    _ = t.ledger.toNat <<< 32 % 2 ^ 64 ||| t.transaction.toNat <<< 24 % 2 ^ 64 |||
          t.operation.toNat <<< 16 % 2 ^ 64 ||| t.group.toNat <<< 8 % 2 ^ 64 ||| t.index.toNat := by
        rw [shift _ 32 (by omega), shift _ 24 (by omega), shift _ 16 (by omega),
          shift _ 8 (by omega)]

/-- Unpacking shifts each field to the end and cuts off what stands before it. -/
theorem unpack_eq_shift (v : UInt64) :
    unpack v = ⟨(v >>> 32).toUInt32, (v >>> 24).toUInt8, (v >>> 16).toUInt8, (v >>> 8).toUInt8,
      v.toUInt8⟩ := by
  unfold unpack
  simp only [Token.mk.injEq, ← UInt32.toNat_inj, ← UInt8.toNat_inj, UInt64.toNat_toUInt32,
    UInt64.toNat_toUInt8, UInt64.toNat_shiftRight, UInt32.toNat_ofNat', UInt8.toNat_ofNat',
    Nat.shiftRight_eq_div_pow]
  exact ⟨rfl, rfl, rfl, rfl, trivial⟩

/-! ## Order -/

theorem compare_uint8 (a b : UInt8) : Ord.compare a b = Ord.compare a.toNat b.toNat := by
  simp [Ord.compare, compareOfLessAndEq, UInt8.lt_iff_toNat_lt, ← UInt8.toNat_inj]

theorem compare_uint32 (a b : UInt32) : Ord.compare a b = Ord.compare a.toNat b.toNat := by
  simp [Ord.compare, compareOfLessAndEq, UInt32.lt_iff_toNat_lt, ← UInt32.toNat_inj]

theorem compare_uint64 (a b : UInt64) : Ord.compare a b = Ord.compare a.toNat b.toNat := by
  simp [Ord.compare, compareOfLessAndEq, UInt64.lt_iff_toNat_lt, ← UInt64.toNat_inj]

/-- Numbers with one more digit compare by what stands before it, and then by the digit. -/
theorem compare_digit {m n a b : ℕ} (ha : a < 256) (hb : b < 256) :
    Ord.compare (m * 256 + a) (n * 256 + b) = (Ord.compare m n).then (Ord.compare a b) := by
  rcases Nat.lt_trichotomy m n with hlt | rfl | hgt
  · rw [Nat.compare_eq_lt.mpr hlt, Nat.compare_eq_lt.mpr (by omega)]
    rfl
  · have heq : Ord.compare m m = .eq := Nat.compare_eq_eq.mpr rfl
    rw [heq, Nat.compare_eq_ite_lt, Nat.compare_eq_ite_lt]
    simp only [Nat.add_lt_add_iff_left]
    rfl
  · rw [Nat.compare_eq_gt.mpr hgt, Nat.compare_eq_gt.mpr (by omega)]
    rfl

/-- Tokens compare field by field as their packed numbers do. -/
theorem compare_eq (s t : Token) : s.compare t = Ord.compare s.pack t.pack := by
  have digit (w : UInt8) : w.toNat < 256 := w.toNat_lt
  rw [compare_uint64, toNat_pack, toNat_pack, number, number,
    compare_digit (digit _) (digit _), compare_digit (digit _) (digit _),
    compare_digit (digit _) (digit _), compare_digit (digit _) (digit _)]
  unfold Token.compare
  rw [compare_uint32, compare_uint8, compare_uint8, compare_uint8, compare_uint8]
  simp only [Ordering.then_assoc]

/-! ## Numerals -/

theorem parse_text (t : Token) : parse t.text = .ok t := by
  unfold parse
  rw [parse_text_pack]
  show Except.ok (unpack (UInt64.ofNat t.pack.toNat)) = .ok t
  rw [UInt64.ofNat_toNat, unpack_pack]

theorem ofJsonText?_text (t : Token) : ofJsonText? t.toJson.text = some t := by
  unfold ofJsonText? toJson
  rw [Json.parse?_string]
  simp [Json.asString?, parse_text, Except.toOption]

/-- The packed form makes the tokens the 64-bit numbers, in their order: packing and unpacking undo
    each other, tokens compare as they are packed, and the numeral that a token is printed as is
    read back as that token, on its own and as JSON. So no two documents share an id that do not
    share their token. -/
theorem packed_order :
    (Function.LeftInverse unpack pack ∧ Function.RightInverse unpack pack) ∧
    (∀ s t : Token, s.compare t = Ord.compare s.pack t.pack) ∧
    (∀ t : Token, parse t.text = .ok t ∧ ofJsonText? t.toJson.text = some t) ∧
    ∀ (deployment : String) (d d' : Document),
      (BulkEntry.ofDocument deployment d).id = (BulkEntry.ofDocument deployment d').id ↔
        d.token = d'.token := by
  refine ⟨⟨unpack_pack, pack_unpack⟩, compare_eq, fun t => ⟨parse_text t, ofJsonText?_text t⟩,
    fun deployment d d' => ⟨fun h => ?_, fun h => ?_⟩⟩
  · exact text_injective (Option.some.inj h)
  · exact congrArg (fun t => some t.text) h

end Token

end LedgerSearch
