import Mathlib
import LedgerSearch.Proofs.Document.Rounding

/-
  Prices of trades. A price is rounded twice where the quotient is first found as a decimal number
  of some 28 digits and only then cut to seven decimals. A quotient of two 64-bit numbers is either
  a half of the seventh decimal or too far from it for the first rounding to reach it
  (`lt_distance`), so that the price is the exact quotient's, whatever the division.
-/

namespace LedgerSearch

/-! ## Decimal numbers -/

/-- The number `mantissa` · 10 ^ -`scale`. -/
structure Decimal where
  mantissa : ℤ
  scale : ℕ
deriving DecidableEq

namespace Decimal

/-- The number that a decimal stands for. -/
def value (d : Decimal) : ℚ := d.mantissa / 10 ^ d.scale

/-- A number with at most `places` decimals: the number itself if it has no more, and else the
    nearest one, a half going away from zero. -/
def rounded (places : ℕ) (d : Decimal) : Decimal :=
  if d.scale ≤ places then d
  else ⟨roundHalfAway d.mantissa (10 ^ (d.scale - places)), places⟩

/-- A number with at most seven decimals in units of 10 ^ -7. -/
def units (d : Decimal) : ℤ := d.mantissa * 10 ^ (7 - d.scale)

/-- The text of a number to seven decimals. -/
def text (d : Decimal) : String := sevenDecimals (d.rounded 7).units

theorem nearestAway_units (d : Decimal) :
    NearestAway (10 ^ 7 * d.value) (d.rounded 7).units := by
  unfold rounded
  split
  · next hle =>
    have hexact : 10 ^ 7 * d.value = (d.units : ℚ) := by
      have hpow : (10 : ℚ) ^ 7 = 10 ^ (7 - d.scale) * 10 ^ d.scale := by
        rw [← pow_add, Nat.sub_add_cancel hle]
      unfold value units
      rw [hpow]
      push_cast
      field_simp
    rw [hexact]
    exact nearestAway_intCast _
  · next hlt =>
    have hquotient : 10 ^ 7 * d.value = d.mantissa / ((10 ^ (d.scale - 7) : ℤ) : ℚ) := by
      have hpow : (10 : ℚ) ^ d.scale = 10 ^ (d.scale - 7) * 10 ^ 7 := by
        rw [← pow_add, Nat.sub_add_cancel (by omega)]
      unfold value
      rw [hpow]
      push_cast
      field_simp
    rw [hquotient]
    have hunits : units ⟨roundHalfAway d.mantissa (10 ^ (d.scale - 7)), 7⟩ =
        roundHalfAway d.mantissa (10 ^ (d.scale - 7)) := mul_one _
    rw [hunits]
    exact nearestAway_roundHalfAway _ (by positivity)

/-- A number of at most 28 digits and at most 28 decimals. -/
def Fits (x : ℚ) : Prop := ∃ (m : ℤ) (k : ℕ), |m| < 10 ^ 28 ∧ k ≤ 28 ∧ x = m / 10 ^ k

end Decimal

/-- What prices rely on of the division of decimal numbers. There is none by zero. A quotient that
    28 digits and decimals are enough for is exact; 2 ^ -40 has 28 digits but 40 decimals, and need
    not be. Any other is off by no more than a unit of its 27th digit or decimal. -/
structure Divides (divide : Int64 → Int64 → Option Decimal) : Prop where
  by_zero : ∀ a, divide a 0 = none
  exists_quotient : ∀ a b, b ≠ 0 → ∃ q, divide a b = some q
  exact : ∀ a b q, divide a b = some q → Decimal.Fits (a.toInt / b.toInt) →
    q.value = a.toInt / b.toInt
  close : ∀ a b q, divide a b = some q →
    |q.value - a.toInt / b.toInt| ≤ 1 / 10 ^ 27 * max 1 |(a.toInt : ℚ) / b.toInt|

/-- The price by a division of decimal numbers: the quotient, then rounded. -/
def priceBy (divide : Int64 → Int64 → Option Decimal) (sold bought : Int64) : String :=
  match divide sold bought with
  | some q => q.text
  | none => "0.0"

/-! ## Halves of the seventh decimal -/

section

variable {a b : ℤ}

/-- A quotient of two 64-bit numbers keeps its distance from every half of the seventh decimal that
    it is not. -/
theorem lt_distance (ha : |a| ≤ 2 ^ 63) (hb : |b| ≤ 2 ^ 63) (hb0 : b ≠ 0) {k : ℤ}
    (h : 10 ^ 7 * ((a : ℚ) / b) ≠ k + 1 / 2) :
    10 ^ 7 * (1 / 10 ^ 27 * max 1 |(a : ℚ) / b|) < |10 ^ 7 * ((a : ℚ) / b) - (k + 1 / 2)| := by
  have hpos : (0 : ℚ) < |(b : ℚ)| := abs_pos.mpr (by exact_mod_cast hb0)
  have hne : (b : ℚ) ≠ 0 := by exact_mod_cast hb0
  -- over the common denominator the distance is a whole number of parts
  obtain ⟨z, hz⟩ : ∃ z : ℤ, z = 2 * 10 ^ 7 * a - (2 * k + 1) * b := ⟨_, rfl⟩
  have hdistance : 10 ^ 7 * ((a : ℚ) / b) - (k + 1 / 2) = z / (2 * b) := by
    rw [hz]
    push_cast
    field_simp
    ring
  have hone : (1 : ℚ) ≤ |(z : ℚ)| := by
    have hz0 : z ≠ 0 := by
      intro hzero
      rw [hzero, Int.cast_zero, zero_div] at hdistance
      exact h (sub_eq_zero.mp hdistance)
    exact_mod_cast Int.one_le_abs hz0
  have hmax : max 1 |(a : ℚ) / b| ≤ 2 ^ 63 / |(b : ℚ)| := by
    apply max_le
    · rw [le_div_iff₀ hpos, one_mul]
      exact_mod_cast hb
    · rw [abs_div]
      gcongr
      exact_mod_cast ha
  calc 10 ^ 7 * (1 / 10 ^ 27 * max 1 |(a : ℚ) / b|)
      ≤ 10 ^ 7 * (1 / 10 ^ 27 * (2 ^ 63 / |(b : ℚ)|)) := by gcongr
    _ = 2 ^ 63 / 10 ^ 20 / |(b : ℚ)| := by ring
    _ < 1 / 2 / |(b : ℚ)| := div_lt_div_of_pos_right (by norm_num) hpos
    _ ≤ |(z : ℚ)| / 2 / |(b : ℚ)| := by gcongr
    _ = |10 ^ 7 * ((a : ℚ) / b) - (k + 1 / 2)| := by
        rw [hdistance, abs_div, abs_mul, abs_two, div_div]

/-- A half of the seventh decimal takes few digits. -/
theorem fits_of_half (ha : |a| ≤ 2 ^ 63) (hb0 : b ≠ 0) {k : ℤ}
    (h : 10 ^ 7 * ((a : ℚ) / b) = k + 1 / 2) : Decimal.Fits (a / b) := by
  have hvalue : (a : ℚ) / b = (5 * (2 * k + 1) : ℤ) / 10 ^ 8 := by
    push_cast
    linarith
  refine ⟨5 * (2 * k + 1), 8, ?_, by decide, hvalue⟩
  have hb1 : (1 : ℚ) ≤ |(b : ℚ)| := by exact_mod_cast Int.one_le_abs hb0
  have hquotient : |(a : ℚ) / b| ≤ 2 ^ 63 := by
    have ha' : |(a : ℚ)| ≤ 2 ^ 63 := by exact_mod_cast ha
    rw [abs_div]
    exact (div_le_self (abs_nonneg _) hb1).trans ha'
  rw [hvalue, abs_div, div_le_iff₀ (by positivity), abs_of_pos (show (0 : ℚ) < 10 ^ 8 by norm_num)]
    at hquotient
  have hm : |(5 * (2 * k + 1) : ℤ)| ≤ 2 ^ 63 * 10 ^ 8 := by exact_mod_cast hquotient
  exact hm.trans_lt (by norm_num)

/-- Whatever lies as near to the quotient as a decimal number of 28 digits, and is the quotient
    itself where that has no more, lies on the same side of every half of the seventh decimal. -/
theorem sameSide_of_close (ha : |a| ≤ 2 ^ 63) (hb : |b| ≤ 2 ^ 63) (hb0 : b ≠ 0) {q : ℚ}
    (hexact : Decimal.Fits (a / b) → q = a / b)
    (hclose : |q - a / b| ≤ 1 / 10 ^ 27 * max 1 |(a : ℚ) / b|) (k : ℤ) :
    (10 ^ 7 * q < k + 1 / 2 ↔ 10 ^ 7 * ((a : ℚ) / b) < k + 1 / 2) ∧
      (k + 1 / 2 < 10 ^ 7 * q ↔ k + 1 / 2 < 10 ^ 7 * ((a : ℚ) / b)) := by
  by_cases hhalf : 10 ^ 7 * ((a : ℚ) / b) = k + 1 / 2
  · rw [hexact (fits_of_half ha hb0 hhalf)]
    exact ⟨Iff.rfl, Iff.rfl⟩
  · have hfar := lt_distance ha hb hb0 hhalf
    have hnear : |10 ^ 7 * q - 10 ^ 7 * ((a : ℚ) / b)| <
        |10 ^ 7 * ((a : ℚ) / b) - (k + 1 / 2)| := by
      rw [← mul_sub, abs_mul, abs_of_pos (show (0 : ℚ) < 10 ^ 7 by norm_num)]
      exact (mul_le_mul_of_nonneg_left hclose (by norm_num)).trans_lt hfar
    obtain ⟨hlow, hhigh⟩ := abs_lt.mp hnear
    rcases lt_or_gt_of_ne hhalf with hlt | hgt
    · rw [abs_of_neg (by linarith)] at hlow hhigh
      exact ⟨⟨fun _ => hlt, fun _ => by linarith⟩,
        ⟨fun h => by linarith, fun h => absurd h hlt.not_gt⟩⟩
    · rw [abs_of_pos (by linarith)] at hlow hhigh
      exact ⟨⟨fun h => by linarith, fun h => absurd h hgt.not_gt⟩,
        ⟨fun _ => hgt, fun _ => by linarith⟩⟩

end

theorem abs_toInt_le (n : Int64) : |n.toInt| ≤ 2 ^ 63 := by
  have := n.toInt_lt
  have := n.le_toInt
  rw [abs_le]
  omega

theorem toInt_ne_zero {n : Int64} (h : n ≠ 0) : n.toInt ≠ 0 :=
  fun hzero => h (Int64.toInt_inj.mp hzero)

/-- A price to seven decimals is that of the exact quotient. -/
theorem Decimal.units_eq {divide : Int64 → Int64 → Option Decimal} (hd : Divides divide)
    {sold bought : Int64} (hb : bought ≠ 0) {q : Decimal} (hq : divide sold bought = some q) :
    (q.rounded 7).units = roundHalfAway (sold.toInt * 10000000) bought.toInt := by
  have hside := sameSide_of_close (abs_toInt_le sold) (abs_toInt_le bought) (toInt_ne_zero hb)
    (hd.exact _ _ q hq) (hd.close _ _ q hq)
  have hrounded := q.nearestAway_units.of_sameSide (fun k => (hside k).1) fun k => (hside k).2
  have hexact := nearestAway_roundHalfAway (sold.toInt * 10000000) (toInt_ne_zero hb)
  refine hrounded.unique ?_
  convert hexact using 1
  push_cast
  ring

/-! ## A division -/

namespace Decimal

/-- The quotient of two integers in units of 10 ^ -`scale`. -/
def quotientAt (scale : ℕ) (a b : ℤ) : ℤ := roundHalfAway (a * (10 ^ scale : ℕ)) b

/-- As many decimals, up to 28, as leave the quotient 96 bits. -/
def quotientScale (a b : ℤ) : ℕ :=
  Nat.findGreatest (fun s => (quotientAt s a b).natAbs < 2 ^ 96) 28

/-- The quotient to as many decimals as fit. -/
def quotient (a b : ℤ) : Decimal := ⟨quotientAt (quotientScale a b) a b, quotientScale a b⟩

/-- There is no quotient by zero. -/
def divide (a b : Int64) : Option Decimal :=
  if b = 0 then none else some (quotient a.toInt b.toInt)

variable {a b : ℤ}

theorem nearestAway_quotientAt (hb : b ≠ 0) (scale : ℕ) :
    NearestAway (10 ^ scale * ((a : ℚ) / b)) (quotientAt scale a b) := by
  have hscaled := nearestAway_roundHalfAway (a * (10 ^ scale : ℕ)) hb
  have hquotient : ((a * (10 ^ scale : ℕ) : ℤ) : ℚ) / b = 10 ^ scale * (a / b) := by
    push_cast
    ring
  rwa [hquotient] at hscaled

theorem quotientAt_eq (hb : b ≠ 0) {scale : ℕ} {m : ℤ} (h : 10 ^ scale * ((a : ℚ) / b) = m) :
    quotientAt scale a b = m :=
  (nearestAway_quotientAt hb scale).unique (h ▸ nearestAway_intCast m)

/-- A quotient that fits has no more decimals than it is given. -/
theorem value_quotient (hb : b ≠ 0) (h : Fits (a / b)) : (quotient a b).value = a / b := by
  obtain ⟨m, k, hm, hk, hvalue⟩ := h
  have hatk : quotientAt k a b = m := quotientAt_eq hb <| by
    rw [hvalue]
    field_simp
  have hle : k ≤ quotientScale a b := by
    refine Nat.le_findGreatest hk ?_
    rw [Int.abs_eq_natAbs] at hm
    rw [hatk]
    omega
  have hpow : (10 : ℚ) ^ quotientScale a b = 10 ^ (quotientScale a b - k) * 10 ^ k := by
    rw [← pow_add, Nat.sub_add_cancel hle]
  have hat : quotientAt (quotientScale a b) a b = m * 10 ^ (quotientScale a b - k) :=
    quotientAt_eq hb <| by
      rw [hvalue, hpow]
      push_cast
      field_simp
  unfold value quotient
  rw [hat, hvalue, hpow]
  push_cast
  field_simp

/-- A quotient is off by half of its last decimal at most. -/
theorem abs_value_quotient_sub_le (hb : b ≠ 0) :
    |(quotient a b).value - a / b| ≤ 1 / 2 / 10 ^ quotientScale a b := by
  have hpos : (0 : ℚ) < 10 ^ quotientScale a b := by positivity
  have hvalue : (quotient a b).value - a / b =
      (quotientAt (quotientScale a b) a b - 10 ^ quotientScale a b * (a / b)) /
        10 ^ quotientScale a b := by
    unfold value quotient
    field_simp
  rw [hvalue, abs_div, abs_of_pos hpos, abs_sub_comm]
  gcongr
  exact (nearestAway_quotientAt hb _).abs_sub_le

/-- Only a large quotient has less than 28 decimals: one more would take more than 96 bits. -/
theorem le_of_quotientScale_lt (hb : b ≠ 0) (h : quotientScale a b < 28) :
    10 ^ 27 ≤ 10 ^ quotientScale a b * |(a : ℚ) / b| := by
  have hnext : ¬ (quotientAt (quotientScale a b + 1) a b).natAbs < 2 ^ 96 :=
    Nat.findGreatest_is_greatest (P := fun s => (quotientAt s a b).natAbs < 2 ^ 96)
      (Nat.lt_succ_self _) h
  have hlarge : (2 ^ 96 : ℚ) ≤ |(quotientAt (quotientScale a b + 1) a b : ℚ)| := by
    rw [not_lt, ← Int.ofNat_le, ← Int.abs_eq_natAbs] at hnext
    exact_mod_cast hnext
  have hsize : |10 ^ (quotientScale a b + 1) * ((a : ℚ) / b)| =
      10 * (10 ^ quotientScale a b * |(a : ℚ) / b|) := by
    rw [abs_mul, abs_of_pos (show (0 : ℚ) < 10 ^ (quotientScale a b + 1) by positivity), pow_succ]
    ring
  have hround := (nearestAway_quotientAt (a := a) hb (quotientScale a b + 1)).abs_sub_le
  have hdistance := abs_sub_abs_le_abs_sub (quotientAt (quotientScale a b + 1) a b : ℚ)
    (10 ^ (quotientScale a b + 1) * ((a : ℚ) / b))
  rw [abs_sub_comm, hsize] at hdistance
  linarith

theorem close_quotient (hb : b ≠ 0) :
    |(quotient a b).value - a / b| ≤ 1 / 10 ^ 27 * max 1 |(a : ℚ) / b| := by
  refine (abs_value_quotient_sub_le hb).trans ?_
  rcases eq_or_lt_of_le (show quotientScale a b ≤ 28 from Nat.findGreatest_le 28) with hall | hcut
  · rw [hall]
    calc (1 : ℚ) / 2 / 10 ^ 28 ≤ 1 / 10 ^ 27 * 1 := by norm_num
      _ ≤ 1 / 10 ^ 27 * max 1 |(a : ℚ) / b| := by
        gcongr
        exact le_max_left _ _
  · have hlarge := le_of_quotientScale_lt hb hcut
    calc 1 / 2 / 10 ^ quotientScale a b ≤ 1 / 10 ^ 27 * |(a : ℚ) / b| := by
          rw [div_le_iff₀ (by positivity)]
          linarith
      _ ≤ 1 / 10 ^ 27 * max 1 |(a : ℚ) / b| := by
        gcongr
        exact le_max_right _ _

theorem divide_eq_some {a b : Int64} {q : Decimal} (h : divide a b = some q) :
    b ≠ 0 ∧ q = quotient a.toInt b.toInt := by
  unfold divide at h
  split at h
  · cases h
  · next hb => exact ⟨hb, (Option.some.inj h).symm⟩

theorem divides_divide : Divides divide where
  by_zero a := rfl
  exists_quotient a b hb := ⟨_, if_neg hb⟩
  exact a b q hq hfits := by
    obtain ⟨hb, rfl⟩ := divide_eq_some hq
    exact value_quotient (toInt_ne_zero hb) hfits
  close a b q hq := by
    obtain ⟨hb, rfl⟩ := divide_eq_some hq
    exact close_quotient (toInt_ne_zero hb)

example : divide 2 3 = some ⟨6666666666666666666666666667, 28⟩ := by decide +kernel

end Decimal

/-! ## Prices -/

/-- The price of a trade to seven decimals is the exact quotient, rounded once: the nearest number
    of units of 10 ^ -7, a half going away from zero, in its one spelling. A division of decimal
    numbers that is only as near to the quotient as its digits allow gives the same text. Nothing
    bought is priced at nought. -/
theorem price_nearest {divide : Int64 → Int64 → Option Decimal} (hd : Divides divide)
    (sold bought : Int64) :
    priceBy divide sold bought = tradePrice sold bought ∧
      (bought = 0 → tradePrice sold bought = "0.0") ∧
      (bought ≠ 0 → ∃ n whole decimals,
        NearestAway (10 ^ 7 * ((sold.toInt : ℚ) / bought.toInt)) n ∧
          Spelling n (tradePrice sold bought) whole decimals) := by
  by_cases hb : bought = 0
  · subst hb
    refine ⟨?_, fun _ => rfl, fun h => absurd rfl h⟩
    unfold priceBy
    rw [hd.by_zero]
    rfl
  · have hprice : tradePrice sold bought =
        sevenDecimals (roundHalfAway (sold.toInt * 10000000) bought.toInt) := if_neg hb
    refine ⟨?_, fun h => absurd h hb, fun _ => ?_⟩
    · obtain ⟨q, hq⟩ := hd.exists_quotient sold bought hb
      unfold priceBy
      rw [hq, hprice]
      exact congrArg sevenDecimals (Decimal.units_eq hd hb hq)
    · obtain ⟨whole, decimals, hspelling⟩ :=
        spelling_sevenDecimals (roundHalfAway (sold.toInt * 10000000) bought.toInt)
      refine ⟨_, whole, decimals, ?_, hprice ▸ hspelling⟩
      have hnearest := nearestAway_roundHalfAway (sold.toInt * 10000000) (toInt_ne_zero hb)
      convert hnearest using 1
      push_cast
      ring

/-- A half of the seventh decimal below zero, divided exactly, and a quotient cut at its 28th. -/
theorem price_nearest_half :
    Divides Decimal.divide ∧
      (priceBy Decimal.divide (-1) 20000000 = tradePrice (-1) 20000000 ∧
        ((20000000 : Int64) = 0 → tradePrice (-1) 20000000 = "0.0") ∧
        ((20000000 : Int64) ≠ 0 → ∃ n whole decimals,
          NearestAway (10 ^ 7 * (((-1 : Int64).toInt : ℚ) / (20000000 : Int64).toInt)) n ∧
            Spelling n (tradePrice (-1) 20000000) whole decimals)) ∧
      tradePrice (-1) 20000000 = "-0.0000001" ∧
      priceBy Decimal.divide 2 3 = tradePrice 2 3 ∧ tradePrice 2 3 = "0.6666667" :=
  ⟨Decimal.divides_divide, price_nearest Decimal.divides_divide (-1) 20000000, by decide +kernel,
    (price_nearest Decimal.divides_divide 2 3).1, by decide +kernel⟩

end LedgerSearch
