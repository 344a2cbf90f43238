import LedgerSearch.Failure
import LedgerSearch.Json.Basic

/-
  Runs of ledger sequences: a run cut into pieces of bounded length, gaps in a store, and the
  ledgers that are exported together.
-/

namespace LedgerSearch

/-- Ledger sequences as a list. -/
def Json.seqs (seqs : List UInt32) : Json := .array (seqs.map .uint32)

/-- Two sequences as a list, or nothing. -/
def Json.seqPair? (p : Option (UInt32 × UInt32)) : Json :=
  match p with
  | some (lo, hi) => .array [.uint32 lo, .uint32 hi]
  | none => .null

/-- The sum, or the largest 32-bit number. -/
def saturatingAdd (a b : UInt32) : UInt32 := UInt32.ofNat (min (a.toNat + b.toNat) (UInt32.size - 1))

theorem toNat_saturatingAdd (a b : UInt32) :
    (saturatingAdd a b).toNat = min (a.toNat + b.toNat) (UInt32.size - 1) :=
  UInt32.toNat_ofNat_of_lt' (Nat.lt_of_le_of_lt (Nat.min_le_right _ _) (by decide))

/-- `[lo, hi)` as consecutive pieces of at most `step` numbers; a step of zero counts as one. -/
def pieces (step lo hi : Nat) : List (Nat × Nat) :=
  if lo < hi then
    let mid := min (lo + max step 1) hi
    (lo, mid) :: pieces step mid hi
  else []
termination_by hi - lo
decreasing_by omega

/-- A run of sequences missing from a store, both ends included. -/
structure Gap where
  first : UInt32
  last : UInt32
deriving DecidableEq

/-- The length of the run, if the ends are in order and it fits 32 bits. -/
def Gap.count (g : Gap) : Outcome Nat := do
  let n ← checkedSub g.last.toNat g.first.toNat
  checkedAdd UInt32.size n 1

/-- Both ends belong to the gap. -/
def Gap.toJson (g : Gap) : Json := .object [("start", .uint32 g.first), ("end", .uint32 g.last)]

/-- How many of the sequences `[start, stop)` are held. -/
structure Bucket where
  start : UInt32
  stop : UInt32
  count : Nat
deriving DecidableEq

/-- The bucket counts what it holds from `start` and below `stop`. -/
def Bucket.toJson (b : Bucket) : Json :=
  .object [("start", .uint32 b.start), ("end", .uint32 b.stop), ("count", .nat b.count)]

/-- Where the run from `start` on ends: an interval further, or at the highest sequence where the
    sum is no 32-bit number, but not beyond `stop`. An interval of zero counts as one. -/
def bucketStop (start stop interval : UInt32) : UInt32 :=
  min (saturatingAdd start (max interval 1)) stop

/-- A sum that is cut has still moved on, as `stop` is a 32-bit number above `start`. -/
theorem lt_bucketStop {start stop : UInt32} (h : start < stop) (interval : UInt32) :
    start < bucketStop start stop interval := by
  have hwidth : 1 ≤ max interval 1 := by
    show 1 ≤ if interval ≤ 1 then 1 else interval
    grind
  show start < if _ ≤ stop then _ else stop
  split
  · have hroom : stop.toNat ≤ UInt32.size - 1 := Nat.le_sub_one_of_lt stop.toNat_lt
    rw [UInt32.lt_iff_toNat_lt] at h ⊢
    rw [UInt32.le_iff_toNat_le, UInt32.toNat_one] at hwidth
    rw [toNat_saturatingAdd]
    omega
  · exact h

/-- The runs `[a, b)` that the ledgers of `[start, stop)` are counted by. -/
def bucketRanges (start stop interval : UInt32) : List (UInt32 × UInt32) :=
  if start < stop then
    let mid := bucketStop start stop interval
    (start, mid) :: bucketRanges mid stop interval
  else []
termination_by stop.toNat - start.toNat
decreasing_by
  have hmid := UInt32.lt_iff_toNat_lt.mp (lt_bucketStop ‹start < stop› interval)
  have hlt := UInt32.lt_iff_toNat_lt.mp ‹start < stop›
  omega

/-- The ledgers of one batch. -/
inductive Selection where
  | range (start count : UInt32)
  | seqs (seqs : List UInt32)
deriving DecidableEq

/-- A range by its bounds, a list by its members. -/
def Selection.toJson : Selection → Json
  | .range start count => .object [("start", .uint32 start), ("count", .uint32 count)]
  | .seqs ss => .object [("seqs", Json.seqs ss)]

/-- The ledgers `[start, start + count)` in batches; a batch size of zero counts as one. The start
    of a batch is cut to 32 bits. -/
def rangeBatches (start count batch : UInt32) : List Selection :=
  (pieces batch.toNat start.toNat (start.toNat + count.toNat)).map fun (a, b) =>
    .range (UInt32.ofNat a) (UInt32.ofNat (b - a))

/-- Consecutive groups of `size` items, the last one possibly smaller; a size of zero counts as
    one. -/
def groupsOf {α : Type} (size : Nat) (items : List α) : List (List α) :=
  match items with
  | [] => []
  | a :: rest => (a :: rest.take (size - 1)) :: groupsOf size (rest.drop (size - 1))
termination_by items.length
decreasing_by simp only [List.length_drop, List.length_cons]; omega

/-- The given ledgers in batches. -/
def seqBatches (batch : UInt32) (seqs : List UInt32) : List Selection :=
  (groupsOf batch.toNat seqs).map .seqs

/-- An ascending list as runs of consecutive sequences, both ends included. -/
def runsOf : List UInt32 → List (Nat × Nat)
  | [] => []
  | s :: rest =>
    match runsOf rest with
    | (lo, hi) :: more =>
      if s.toNat + 1 = lo then (s.toNat, hi) :: more
      else (s.toNat, s.toNat) :: (lo, hi) :: more
    | [] => [(s.toNat, s.toNat)]

end LedgerSearch
