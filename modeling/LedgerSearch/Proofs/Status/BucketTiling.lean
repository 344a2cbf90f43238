import Mathlib
import LedgerSearch.Memory.Index
import LedgerSearch.Proofs.Export.RangeBatches
import LedgerSearch.Search.Client

/-
  The runs that ledger documents are counted by. The end of a run is a 32-bit sum that is cut at the
  highest sequence, but that never shows: a sum that is cut lies at or beyond `stop`, which cuts the
  run as well (`toNat_bucketStop`). So counting moves on with every run, and the runs are the pieces
  of the range, whatever its end (`bucketRanges_tile`). The counts of an index in memory add up to
  what it holds in the range (`Memory.Index.sum_buckets`).
-/

namespace LedgerSearch

/-- Runs of sequences as intervals of integers. -/
def spans (runs : List (UInt32 × UInt32)) : List (ℕ × ℕ) :=
  runs.map fun r => (r.1.toNat, r.2.toNat)

section

variable {start stop interval : UInt32}

/-! ## One run -/

/-- A run ends where it would end if no word bounded the sum. -/
theorem toNat_bucketStop : (bucketStop start stop interval).toNat =
    min (start.toNat + max interval.toNat 1) stop.toNat := by
  -- the highest sequence is no cut of its own
  have hstop : stop.toNat ≤ UInt32.size - 1 := Nat.le_sub_one_of_lt stop.toNat_lt
  rw [bucketStop, UInt32.toNat_min, toNat_saturatingAdd, UInt32.toNat_max, UInt32.toNat_one,
    min_assoc, min_eq_right hstop]

theorem bucketStop_le : bucketStop start stop interval ≤ stop := by
  rw [UInt32.le_iff_toNat_le, toNat_bucketStop]
  exact Nat.min_le_right _ _

/-! ## The runs of a range -/

theorem bucketRanges_of_lt (h : start < stop) : bucketRanges start stop interval =
    (start, bucketStop start stop interval) ::
      bucketRanges (bucketStop start stop interval) stop interval := by
  rw [bucketRanges, if_pos h]

theorem bucketRanges_of_le (h : stop ≤ start) : bucketRanges start stop interval = [] := by
  rw [bucketRanges, if_neg (UInt32.not_lt.mpr h)]

/-- The runs of words are the pieces of the range of integers. -/
theorem spans_bucketRanges :
    spans (bucketRanges start stop interval) = pieces interval.toNat start.toNat stop.toNat := by
  fun_induction bucketRanges start stop interval with
  | case1 start hlt mid ih =>
    have hmid : mid.toNat = min (start.toNat + max interval.toNat 1) stop.toNat := toNat_bucketStop
    rw [pieces_of_lt (UInt32.lt_iff_toNat_lt.mp hlt), ← hmid, ← ih]
    rfl
  | case2 start hge =>
    rw [pieces_of_le (UInt32.le_iff_toNat_le.mp (UInt32.not_lt.mp hge))]
    rfl

theorem head?_bucketRanges : (bucketRanges start stop interval).head?.map Prod.fst =
    if start < stop then some start else none := by
  rw [bucketRanges]
  split <;> rfl

theorem getLast?_bucketRanges : (bucketRanges start stop interval).getLast?.map Prod.snd =
    if start < stop then some stop else none := by
  fun_induction bucketRanges start stop interval with
  | case1 start hlt mid ih =>
    rw [List.getLast?_cons, if_pos hlt]
    by_cases hmid : mid < stop
    · rw [if_pos hmid] at ih
      obtain ⟨r, hr, hstop⟩ := Option.map_eq_some_iff.mp ih
      rw [hr, ← hstop]
      rfl
    · rw [bucketRanges_of_le (UInt32.not_lt.mp hmid)]
      exact congrArg some (UInt32.le_antisymm bucketStop_le (UInt32.not_lt.mp hmid))
  | case2 start hge => rw [if_neg hge]; rfl

/-- A sequence of the range lies in one run, any other one in none. -/
theorem countP_bucketRanges (x : UInt32) :
    (bucketRanges start stop interval).countP (fun r => r.1 ≤ x ∧ x < r.2) =
      if start ≤ x ∧ x < stop then 1 else 0 := by
  fun_induction bucketRanges start stop interval with
  | case1 start hlt mid ih =>
    have hfirst : start < mid := lt_bucketStop hlt interval
    have hle : mid ≤ stop := bucketStop_le
    rw [List.countP_cons, ih]
    grind
  | case2 start hge =>
    grind

end

/-! ## What is asked of the index, and what it counts -/

namespace Search

/-- The interval that a range of a query names. -/
def spanOf? (range : Json) : Option (ℕ × ℕ) := do
  some (← (← range.get? "from").asNat?, ← (← range.get? "to").asNat?)

/-- The intervals that a query has ledgers counted by. -/
def spansOf? (query : Json) : Option (List (ℕ × ℕ)) := do
  (← (← query.at? ["aggs", "ranges", "range", "ranges"]).asArray?).mapM spanOf?

theorem spansOf?_bucketsQuery (start stop interval : UInt32) :
    spansOf? (Client.bucketsQuery start stop interval) =
      some (spans (bucketRanges start stop interval)) := by
  show ((bucketRanges start stop interval).map _).mapM spanOf? = _
  rw [List.mapM_map]
  exact List.mapM_pure

end Search

/-- What lies in an interval lies in one of its two parts. -/
theorem countP_between (xs : List UInt32) {lo mid hi : UInt32} (hlo : lo ≤ mid) (hhi : mid ≤ hi) :
    (xs.countP fun x => lo ≤ x && x < mid) + (xs.countP fun x => mid ≤ x && x < hi) =
      xs.countP fun x => lo ≤ x && x < hi := by
  induction xs with
  | nil => rfl
  | cons x xs ih =>
    rw [List.countP_cons, List.countP_cons, List.countP_cons, ← ih]
    grind

theorem Memory.Index.length_seqsIn (x : Memory.Index) (lo hi : UInt32) :
    (x.seqsIn lo hi).length = x.held.countP fun seq => lo ≤ seq && seq < hi :=
  List.countP_eq_length_filter.symm

/-- The ledgers in the buckets are those held in the range. -/
theorem Memory.Index.sum_buckets (x : Memory.Index) (start stop interval : UInt32) :
    ((x.buckets start stop interval).map (·.count)).sum = (x.seqsIn start stop).length := by
  rw [buckets, List.map_map]
  fun_induction bucketRanges start stop interval with
  | case1 start hlt mid ih =>
    have hle : start ≤ mid := UInt32.le_of_lt (lt_bucketStop hlt interval)
    rw [List.map_cons, List.sum_cons, ih, length_seqsIn, length_seqsIn,
      ← countP_between x.held hle bucketStop_le, ← length_seqsIn, ← length_seqsIn]
    rfl
  | case2 start hge =>
    rw [length_seqsIn, List.map_nil, List.sum_nil, eq_comm, List.countP_eq_zero]
    grind

/-- The range `[start, stop)` is counted by runs of at most `interval` sequences each (an interval
    of zero counts as one), and they are what the index is asked for. They are non-empty, follow one
    another from `start` to `stop`, and are as few as they can be, so that a sequence of the range
    lies in exactly one of them and any other in none; a range that ends where it starts, or before,
    has no runs. No bound is put on the numbers: `stop` may be the highest sequence of all. -/
theorem bucketRanges_tile (start stop interval : UInt32) :
    Search.spansOf? (Search.Client.bucketsQuery start stop interval) =
      some (spans (bucketRanges start stop interval)) ∧
    Tiles (max interval.toNat 1) start.toNat stop.toNat
      (spans (bucketRanges start stop interval)) ∧
    (bucketRanges start stop interval).length =
      (stop.toNat - start.toNat) ⌈/⌉ max interval.toNat 1 ∧
    (bucketRanges start stop interval).head?.map Prod.fst =
      (if start < stop then some start else none) ∧
    (bucketRanges start stop interval).getLast?.map Prod.snd =
      (if start < stop then some stop else none) ∧
    (∀ x, (bucketRanges start stop interval).countP (fun r => r.1 ≤ x ∧ x < r.2) =
      if start ≤ x ∧ x < stop then 1 else 0) ∧
    (bucketRanges start stop interval = [] ↔ stop ≤ start) := by
  have htiles : Tiles (max interval.toNat 1) start.toNat stop.toNat
      (spans (bucketRanges start stop interval)) := spans_bucketRanges ▸ tiles_pieces
  have hlength : (bucketRanges start stop interval).length =
      (stop.toNat - start.toNat) ⌈/⌉ max interval.toNat 1 := by
    rw [← length_pieces, ← spans_bucketRanges, spans, List.length_map]
  refine ⟨Search.spansOf?_bucketsQuery start stop interval, htiles, hlength, head?_bucketRanges,
    getLast?_bucketRanges, countP_bucketRanges, fun hnil => ?_, bucketRanges_of_le⟩
  by_contra hlt
  rw [bucketRanges_of_lt (UInt32.not_le.mp hlt)] at hnil
  cases hnil

example : bucketRanges 0xFFFFFFFA 0xFFFFFFFF 4 =
    [(0xFFFFFFFA, 0xFFFFFFFE), (0xFFFFFFFE, 0xFFFFFFFF)] := by
  cbv

end LedgerSearch
