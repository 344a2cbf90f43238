import Mathlib
import LedgerSearch.Proofs.Delivery.Endings

/-
  The waits between the attempts of a delivery. The factor of a wait is a 32-bit word and the
  product is cut to the times there are numbers for, but neither shows: by the time the bit has left
  the word any wait that is not zero is past the longest one (`Writer.delay_succ`). So a delivery
  waits the backoff first, then twice as long each time, and never over 30 seconds
  (`Writer.waits_double`).
-/

namespace LedgerSearch

open Program

namespace Event

variable {Body : Type}

/-- The time an event takes, if it is a wait. -/
def wait? : Event (Site Body) → Option ℕ
  | ⟨.wait ms, _⟩ => some ms
  | ⟨.history _, _⟩ | ⟨.index _, _⟩ | ⟨.increment _ _, _⟩ => none

end Event

/-- The waits of a trace, in order. -/
def waits {Body : Type} (es : List (Event (Site Body))) : List ℕ := es.filterMap Event.wait?

namespace Writer

variable {Body σ : Type}

/-! ## One wait -/

theorem toNat_factor {k : ℕ} (h : k < 32) : (factor (k + 1)).toNat = 2 ^ k := by
  have hk : (UInt32.ofNat k).toNat = k := UInt32.toNat_ofNat_of_lt' (by unfold UInt32.size; omega)
  have hpow : 2 ^ k < 2 ^ 32 := Nat.pow_lt_pow_right (by decide) h
  rw [factor, Nat.add_sub_cancel, if_pos h, UInt32.toNat_shiftLeft, hk, Nat.mod_eq_of_lt h,
    UInt32.toNat_one, Nat.shiftLeft_eq, Nat.one_mul, Nat.mod_eq_of_lt hpow]

theorem toNat_factor_of_le {k : ℕ} (h : 32 ≤ k) : (factor (k + 1)).toNat = 2 ^ 32 - 1 := by
  rw [factor, Nat.add_sub_cancel, if_neg (by omega)]
  rfl

/-- A product that is cut to the longest time is already past the longest wait. -/
theorem delay_eq (w : Writer) (retry : ℕ) :
    w.delay retry = min (w.backoff * (factor retry).toNat) maxDelay := by
  have hle : maxDelay ≤ longestTime := by decide
  rw [delay, min_assoc, min_eq_right hle]

theorem delay_succ (w : Writer) (k : ℕ) :
    w.delay (k + 1) = min (w.backoff * 2 ^ k) maxDelay := by
  rw [delay_eq]
  by_cases hk : k < 32
  · rw [toNat_factor hk]
  · rw [toNat_factor_of_le (by omega)]
    rcases Nat.eq_zero_or_pos w.backoff with hzero | hpos
    · rw [hzero, Nat.zero_mul, Nat.zero_mul]
    · -- one millisecond times either factor is longer than the longest wait
      have hpow : 2 ^ 32 ≤ 2 ^ k := Nat.pow_le_pow_right (by decide) (by omega)
      have hword : maxDelay ≤ 2 ^ 32 - 1 := by decide
      have hshort : 2 ^ 32 - 1 ≤ w.backoff * (2 ^ 32 - 1) := Nat.le_mul_of_pos_left _ hpos
      have hlong : 2 ^ k ≤ w.backoff * 2 ^ k := Nat.le_mul_of_pos_left _ hpos
      rw [min_eq_right (by omega), min_eq_right (by omega)]

theorem delay_le_delay_succ (w : Writer) (k : ℕ) : w.delay (k + 1) ≤ w.delay (k + 2) := by
  rw [delay_succ, delay_succ]
  have hpow : 2 ^ k ≤ 2 ^ (k + 1) := Nat.pow_le_pow_right (by decide) (Nat.le_succ k)
  exact min_le_min_right _ (Nat.mul_le_mul_left _ hpow)

/-! ## The waits of a delivery -/

theorem waits_append (es fs : List (Event (Site Body))) : waits (es ++ fs) = waits es ++ waits fs :=
  List.filterMap_append

/-- There is a wait between any two requests, and no other one. -/
theorem Attempted.waits_eq {w : Writer} {body : Body} {documents sent left : ℕ}
    {es : List (Event (Site Body))} {d : Delivery} (h : Attempted w body documents sent left es d) :
    waits es = (List.range' (sent + 1) ((bulks es).length - 1)).map w.delay := by
  induction h with
  | taken hok => rfl
  | exhausted e hno => rfl
  | @retried sent left reply es d hno hrest ih =>
    have hpos : 0 < (bulks es).length := List.length_pos_iff.mpr hrest.delivered.sends
    obtain ⟨n, hn⟩ : ∃ n, (bulks es).length = n + 1 := ⟨_, (Nat.succ_pred_eq_of_pos hpos).symm⟩
    have hwaits : waits (attemptEvents body reply ++ ([⟨.increment .bulkRetries 1, ()⟩] ++
        ([⟨.wait (w.delay (sent + 1)), ()⟩] ++ es))) = w.delay (sent + 1) :: waits es := by
      rw [waits_append, waits_append, waits_append]
      rfl
    rw [bulks_retried, hwaits, ih, hn, List.length_cons, hn, Nat.add_sub_cancel, Nat.add_sub_cancel,
      List.range'_succ, List.map_cons]

/-- The wait before a retry is the backoff doubled once for each retry before it, up to 30 seconds,
    as if no word bounded the numbers. So waits do not shrink from one retry to the next, none is
    longer than 30 seconds, and without a backoff there is none. A delivery waits in this way
    between its requests, whatever the answers. -/
theorem waits_double (w : Writer) :
    (∀ k, w.delay (k + 1) = min (w.backoff * 2 ^ k) 30000) ∧
    (∀ k, w.delay (k + 1) ≤ w.delay (k + 2)) ∧
    (∀ retry, w.delay retry ≤ 30000) ∧
    (∀ retry, { w with backoff := 0 }.delay retry = 0) ∧
    ∀ {Body σ : Type} [Sendable Body] (body : Body) (documents : ℕ) (h : Handler (Site Body) σ)
      (s : σ), waits ((w.write body documents).trace h s) =
        (List.range ((bulks ((w.write body documents).trace h s)).length - 1)).map fun k =>
          min (w.backoff * 2 ^ k) 30000 := by
  refine ⟨w.delay_succ, w.delay_le_delay_succ, fun retry => min_le_right _ _, fun retry => ?_, ?_⟩
  · rw [delay_eq, Nat.zero_mul, Nat.zero_min]
  · intro Body σ _ body documents h s
    obtain ⟨d, -, hpath⟩ := (neverStops_write w body documents).exists_run h s
    generalize (w.write body documents).trace h s = es at hpath ⊢
    rw [write] at hpath
    split at hpath
    · obtain ⟨rfl, rfl⟩ := path_done.mp hpath
      rfl
    · rw [(attempts_attempted hpath).waits_eq, List.range'_eq_map_range, List.map_map]
      refine List.map_congr_left fun k _ => ?_
      show w.delay (0 + 1 + k) = min (w.backoff * 2 ^ k) maxDelay
      rw [← delay_succ, Nat.zero_add, Nat.add_comm]

end Writer

end LedgerSearch
