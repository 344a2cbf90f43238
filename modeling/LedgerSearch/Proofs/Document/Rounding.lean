import Mathlib
import LedgerSearch.Document.Value

/-
  Rounding to whole numbers, a half going away from zero, and the text of a number of units of
  10 ^ -7. `NearestAway` says what the rounded number is, in whatever way it was found; there is one
  for every rational number, and `roundHalfAway` finds it (`nearestAway_roundHalfAway`).
-/

namespace LedgerSearch

/-! ## Nearest integers -/

/-- No integer is nearer to `x` than `n`, and none that is as near is further from zero. -/
structure NearestAway (x : ℚ) (n : ℤ) : Prop where
  nearest : ∀ m : ℤ, |x - n| ≤ |x - m|
  away : ∀ m : ℤ, |x - m| = |x - n| → |m| ≤ |n|

namespace NearestAway

variable {x y : ℚ} {m n : ℤ}

theorem neg (h : NearestAway x n) : NearestAway (-x) (-n) := by
  have flip (m : ℤ) : |-x - m| = |x - (-m : ℤ)| := by
    rw [← abs_neg]
    congr 1
    push_cast
    ring
  constructor
  · intro m
    rw [flip, flip, neg_neg]
    exact h.nearest (-m)
  · intro m hm
    rw [flip, flip, neg_neg] at hm
    rw [← abs_neg m, abs_neg n]
    exact h.away (-m) hm

/-- Nothing below the half under `n` is rounded to it, and that half only away from zero. -/
theorem below (h : NearestAway x n) : n - 1 / 2 < x ∨ x = n - 1 / 2 ∧ 0 < n := by
  have hbelow := sq_le_sq.mpr (h.nearest (n - 1))
  push_cast at hbelow
  rcases lt_or_eq_of_le (show (n : ℚ) - 1 / 2 ≤ x by nlinarith) with hlt | heq
  · exact .inl hlt
  · have htie : |x - (n - 1 : ℤ)| = |x - n| := by
      push_cast
      rw [← heq, show (n : ℚ) - 1 / 2 - (n - 1) = 1 / 2 by ring,
        show (n : ℚ) - 1 / 2 - n = -(1 / 2) by ring, abs_neg]
    have haway := sq_le_sq.mpr (h.away (n - 1) htie)
    exact .inr ⟨heq.symm, by nlinarith⟩

theorem above (h : NearestAway x n) : x < n + 1 / 2 ∨ x = n + 1 / 2 ∧ n < 0 := by
  have hneg := h.neg.below
  push_cast at hneg
  rcases hneg with hlt | ⟨heq, hpos⟩
  · exact .inl (by linarith)
  · exact .inr ⟨by linarith, by omega⟩

/-- The numbers that are rounded to `n` lie between the two halves next to it, or are the one of
    these halves that is nearer to zero. -/
theorem of_between (hbelow : n - 1 / 2 < x ∨ x = n - 1 / 2 ∧ 0 < n)
    (habove : x < n + 1 / 2 ∨ x = n + 1 / 2 ∧ n < 0) : NearestAway x n := by
  have hlow : (n : ℚ) - 1 / 2 ≤ x := by rcases hbelow with h | ⟨h, -⟩ <;> linarith
  have hhigh : x ≤ (n : ℚ) + 1 / 2 := by rcases habove with h | ⟨h, -⟩ <;> linarith
  constructor
  · intro m
    by_cases hm : m = n
    · rw [hm]
    have hone : (1 : ℚ) ≤ |(m : ℚ) - n| := by
      exact_mod_cast Int.one_le_abs (sub_ne_zero.mpr hm)
    have htriangle := abs_sub_le (m : ℚ) x n
    have hhalf : |x - n| ≤ 1 / 2 := abs_le.mpr ⟨by linarith, by linarith⟩
    rw [abs_sub_comm (m : ℚ) x] at htriangle
    linarith
  · intro m hm
    rcases abs_eq_abs.mp hm with hsame | hopposite
    · have heq : (m : ℚ) = n := by linarith
      rw [Int.cast_injective heq]
    -- an integer as near on the other side is next to `n`, and `x` is the half between the two
    · have hm' : (m : ℚ) = 2 * x - n := by linarith
      have hge : n - 1 ≤ m := by
        have : ((n - 1 : ℤ) : ℚ) ≤ m := by push_cast; linarith
        exact_mod_cast this
      have hle : m ≤ n + 1 := by
        have : (m : ℚ) ≤ (n + 1 : ℤ) := by push_cast; linarith
        exact_mod_cast this
      obtain rfl | rfl | rfl : m = n - 1 ∨ m = n ∨ m = n + 1 := by omega
      · push_cast at hm'
        obtain ⟨-, hpos⟩ := hbelow.resolve_left (by linarith)
        rw [abs_of_nonneg (by omega), abs_of_pos hpos]
        omega
      · exact le_rfl
      · push_cast at hm'
        obtain ⟨-, hneg⟩ := habove.resolve_left (by linarith)
        rw [abs_of_nonpos (by omega), abs_of_neg hneg]
        omega

theorem abs_sub_le (h : NearestAway x n) : |x - n| ≤ 1 / 2 :=
  abs_le.mpr ⟨by rcases h.below with h | ⟨h, -⟩ <;> linarith,
    by rcases h.above with h | ⟨h, -⟩ <;> linarith⟩

protected theorem le (hm : NearestAway x m) (hn : NearestAway x n) : n ≤ m := by
  by_contra hlt
  have hle : (m : ℚ) + 1 ≤ n := by exact_mod_cast Int.not_le.mp hlt
  rcases hm.above with h | ⟨h, hneg⟩
  · rcases hn.below with h' | ⟨h', -⟩ <;> linarith
  · rcases hn.below with h' | ⟨h', hpos⟩
    · linarith
    -- a half between the two would have to be rounded away from zero to both
    · have hnext : (n : ℚ) = (m + 1 : ℤ) := by
        push_cast
        linarith
      have := Int.cast_injective hnext
      omega

theorem unique (hm : NearestAway x m) (hn : NearestAway x n) : m = n :=
  le_antisymm (hn.le hm) (hm.le hn)

/-- Numbers that lie on the same side of every half are rounded alike. -/
theorem of_sameSide (h : NearestAway x n) (hlt : ∀ k : ℤ, x < k + 1 / 2 ↔ y < k + 1 / 2)
    (hgt : ∀ k : ℤ, k + 1 / 2 < x ↔ k + 1 / 2 < y) : NearestAway y n := by
  have heq (k : ℤ) (hx : x = k + 1 / 2) : y = k + 1 / 2 :=
    le_antisymm (not_lt.mp fun hy => by linarith [(hgt k).mpr hy])
      (not_lt.mp fun hy => by linarith [(hlt k).mpr hy])
  have hhalf : (n : ℚ) - 1 / 2 = (n - 1 : ℤ) + 1 / 2 := by
    push_cast
    ring
  refine of_between ?_ ?_
  · rw [hhalf, ← hgt]
    rcases h.below with hx | ⟨hx, hpos⟩
    · exact .inl (hhalf ▸ hx)
    · exact .inr ⟨heq _ (hhalf ▸ hx), hpos⟩
  · rw [← hlt]
    rcases h.above with hx | ⟨hx, hneg⟩
    · exact .inl hx
    · exact .inr ⟨heq _ hx, hneg⟩

end NearestAway

theorem nearestAway_intCast (n : ℤ) : NearestAway (n : ℚ) n :=
  .of_between (.inl (by linarith)) (.inl (by linarith))

theorem nearestAway_div (a : ℕ) {d : ℕ} (hd : 0 < d) :
    NearestAway ((a : ℚ) / d) ((2 * a + d) / (2 * d) : ℕ) := by
  have hpos : (0 : ℚ) < d := by exact_mod_cast hd
  have hle : ((((2 * a + d) / (2 * d) : ℕ) * (2 * d) : ℕ) : ℚ) ≤ (2 * a + d : ℕ) := by
    exact_mod_cast Nat.div_mul_le_self _ _
  have hlt : ((2 * a + d : ℕ) : ℚ) < (((2 * a + d) / (2 * d) : ℕ) * (2 * d) + 2 * d : ℕ) := by
    exact_mod_cast Nat.lt_div_mul_add (by omega)
  generalize (2 * a + d) / (2 * d) = k at hle hlt ⊢
  push_cast at hle hlt ⊢
  refine .of_between ?_ (.inl ?_)
  · rcases lt_or_eq_of_le (show (k : ℚ) - 1 / 2 ≤ a / d by rw [le_div_iff₀ hpos]; linarith) with
      h | h
    · exact .inl h
    · refine .inr ⟨h.symm, ?_⟩
      have hnonneg : (0 : ℚ) ≤ a / d := by positivity
      have : (0 : ℚ) < k := by linarith
      exact_mod_cast this
  · show (a : ℚ) / d < k + 1 / 2
    rw [div_lt_iff₀ hpos]
    linarith

/-- The quotient of two integers is rounded by its magnitude, and then given its sign. -/
theorem nearestAway_roundHalfAway (num : ℤ) {den : ℤ} (h : den ≠ 0) :
    NearestAway (num / den) (roundHalfAway num den) := by
  have hmagnitude := nearestAway_div num.natAbs (Int.natAbs_pos.mpr h)
  rw [Nat.cast_natAbs, Nat.cast_natAbs, Int.cast_abs, Int.cast_abs, ← abs_div] at hmagnitude
  unfold roundHalfAway
  dsimp only
  split
  · next hsigns =>
    rw [eq_iff_iff] at hsigns
    have hnonneg : (0 : ℚ) ≤ num / den := by
      rcases lt_or_gt_of_ne h with hneg | hpos
      · exact div_nonneg_of_nonpos (by exact_mod_cast (hsigns.mpr hneg).le)
          (by exact_mod_cast hneg.le)
      · have hnum : 0 ≤ num := not_lt.mp fun hnum => hpos.not_gt (hsigns.mp hnum)
        exact div_nonneg (by exact_mod_cast hnum) (by exact_mod_cast hpos.le)
    rwa [abs_of_nonneg hnonneg] at hmagnitude
  · next hsigns =>
    rw [eq_iff_iff] at hsigns
    have hnonpos : (num : ℚ) / den ≤ 0 := by
      rcases lt_or_gt_of_ne h with hneg | hpos
      · have hnum : 0 ≤ num := not_lt.mp fun hnum => hsigns ⟨fun _ => hneg, fun _ => hnum⟩
        exact div_nonpos_of_nonneg_of_nonpos (by exact_mod_cast hnum) (by exact_mod_cast hneg.le)
      · have hnum : num < 0 := not_le.mp fun hnum =>
          hsigns ⟨fun hlt => absurd hnum hlt.not_ge, fun hlt => absurd hpos hlt.not_gt⟩
        exact div_nonpos_of_nonpos_of_nonneg (by exact_mod_cast hnum.le) (by exact_mod_cast hpos.le)
    rw [abs_of_nonpos hnonpos] at hmagnitude
    have hneg := hmagnitude.neg
    rwa [neg_neg] at hneg

/-! ## Seven decimals -/

/-- The text of `n` · 10 ^ -7, in its parts: a minus sign exactly if the number is negative, a whole
    part with no zero in front of other digits, a point, and seven decimals. -/
structure Spelling (n : ℤ) (text : String) (whole decimals : List Char) : Prop where
  toList_eq : text.toList = (if n < 0 then ['-'] else []) ++ whole ++ '.' :: decimals
  isDigit : ∀ c ∈ whole ++ decimals, c.isDigit = true
  length_decimals : decimals.length = 7
  whole_ne_nil : whole ≠ []
  no_leading_zero : whole.head? = some '0' → whole.length = 1
  value : Nat.ofDigitChars 10 (whole ++ decimals) 0 = n.natAbs

theorem head?_toDigits {n : ℕ} (h : 0 < n) : (Nat.toDigits 10 n).head? ≠ some '0' := by
  induction n using Nat.strongRecOn with
  | ind n ih =>
    rw [Nat.toDigits_eq_if (by decide)]
    split
    · next hlt =>
      have hdigit : ∀ d < 10, 0 < d → [Nat.digitChar d].head? ≠ some '0' := by decide
      exact hdigit n hlt h
    · next hge =>
      rw [List.head?_append_of_ne_nil _ Nat.toDigits_ne_nil]
      exact ih (n / 10) (Nat.div_lt_self h (by decide)) (by omega)

namespace CloseTime

theorem isDigit_padded {width n : ℕ} {c : Char} (h : c ∈ padded width n) : c.isDigit = true := by
  unfold padded at h
  rcases List.mem_append.mp h with h | h
  · rw [List.eq_of_mem_replicate h]
    rfl
  · exact Nat.isDigit_of_mem_toDigits (by decide) (by decide) h

theorem ofDigitChars_padded (width n : ℕ) : Nat.ofDigitChars 10 (padded width n) 0 = n := by
  unfold padded
  rw [Nat.ofDigitChars_append, Nat.ofDigitChars_replicate_zero, Nat.mul_zero,
    Nat.ofDigitChars_ten_toDigits]

theorem length_padded (width n : ℕ) :
    (padded width n).length = max width (Nat.toDigits 10 n).length := by
  unfold padded
  rw [List.length_append, List.length_replicate]
  omega

/-- A number that fills more than its width does not begin with a zero. -/
theorem head?_padded {width n : ℕ} (hwidth : 0 < width) (h : width < (padded width n).length) :
    (padded width n).head? ≠ some '0' := by
  rw [length_padded] at h
  have hpos : 0 < n := by
    refine Nat.pos_of_ne_zero fun hzero => ?_
    have hone : (Nat.toDigits 10 n).length = 1 := by
      rw [hzero]
      rfl
    omega
  have hfull : width - (Nat.toDigits 10 n).length = 0 := by omega
  unfold padded
  dsimp only
  rw [hfull]
  exact head?_toDigits hpos

end CloseTime

/-- A number of units is written with all its digits, eight or more, and the point before the last
    seven. -/
theorem spelling_sevenDecimals (n : ℤ) :
    ∃ whole decimals, Spelling n (sevenDecimals n) whole decimals := by
  have hlength : 8 ≤ (CloseTime.padded 8 n.natAbs).length := by
    rw [CloseTime.length_padded]
    exact le_max_left _ _
  have hdigit : ∀ c ∈ CloseTime.padded 8 n.natAbs, c.isDigit = true :=
    fun c => CloseTime.isDigit_padded
  have hhead : 8 < (CloseTime.padded 8 n.natAbs).length → _ := CloseTime.head?_padded (by decide)
  have hvalue := CloseTime.ofDigitChars_padded 8 n.natAbs
  unfold sevenDecimals
  generalize CloseTime.padded 8 n.natAbs = ds at *
  have hjoin := List.take_append_drop (ds.length - 7) ds
  refine ⟨ds.take (ds.length - 7), ds.drop (ds.length - 7), ?_, ?_, ?_, ?_, ?_, ?_⟩
  · dsimp only
    rw [String.toList_ofList]
    split <;> rfl
  · rwa [hjoin]
  · rw [List.length_drop]
    omega
  · intro hnil
    have := congrArg List.length hnil
    rw [List.length_take, List.length_nil] at this
    omega
  · intro hzero
    rw [List.head?_take, if_neg (by omega)] at hzero
    rw [List.length_take]
    by_contra hmore
    exact hhead (by omega) hzero
  · rwa [hjoin]

end LedgerSearch
