import LedgerSearch.Program.Site
import LedgerSearch.Search.Mapping

/-
  The indexes as a whole: set up, taken down, and compared with the source.
-/

namespace LedgerSearch

namespace Status

variable {Body : Type}

/-- Does the same for each index in turn. -/
def forEachIndex (f : IndexName → Program (Site Body) Unit) :
    List IndexName → Program (Site Body) Unit
  | [] => pure ()
  | n :: ns => do
    f n
    forEachIndex f ns

/-- Creates every index with the mapping of its documents. -/
def createIndexes : Program (Site Body) Unit :=
  forEachIndex (fun n => Site.index (.create n (Search.mapping n))) IndexName.all

/-- Deletes every index, whatever it holds. -/
def deleteIndexes : Program (Site Body) Unit :=
  forEachIndex (fun n => Site.index (.delete n)) IndexName.all

end Status

/-- What the index holds and what the source has. -/
structure StatusReport where
  /-- The lowest and highest indexed ledger. -/
  indexed : Option (UInt32 × UInt32)
  counts : List (IndexName × Nat)
  /-- Ledger documents by runs of the indexed range. -/
  buckets : List Bucket
  sourceFirst : Option UInt32
  sourceLast : Option UInt32
  sourceGaps : List Gap
deriving DecidableEq

namespace StatusReport

/-- How many ledgers the index should hold within its bounds and does not. -/
def shortfall (r : StatusReport) : Outcome Nat :=
  match r.indexed with
  | none => pure 0
  | some (lo, hi) => do
    let span ← checkedSub hi.toNat lo.toNat
    pure (span + 1 - (r.counts.lookup .ledger).getD 0)

/-- The report in the order of its fields; what is not known is null. -/
def toJson (r : StatusReport) : Json :=
  let seq? (s : Option UInt32) : Json := (s.map .uint32).getD .null
  .object [
    ("indexed_range", Json.seqPair? r.indexed),
    ("counts", .array (r.counts.map fun (n, count) =>
      .object [("index", .string n.label), ("documents", .nat count)])),
    ("ledger_buckets", .array (r.buckets.map (·.toJson))),
    ("source_first", seq? r.sourceFirst),
    ("source_last", seq? r.sourceLast),
    ("source_gaps", .array (r.sourceGaps.map (·.toJson)))]

end StatusReport

namespace Status

variable {Body : Type}

/-- Asks for one index after another; the first error ends it. -/
def countAll : List IndexName → Program (Site Body) (List (IndexName × Nat))
  | [] => pure []
  | n :: ns => do
    let count ← Site.index (.count n)
    let rest ← countAll ns
    pure ((n, count) :: rest)

/-- Ledger documents by runs of `bucket` sequences, which is at least one; the highest sequence of
    all ends the last run. -/
def bucketsOf (bucket : UInt32) : Option (UInt32 × UInt32) → Program (Site Body) (List Bucket)
  | none => pure []
  | some (lo, hi) =>
    let stop := if hi = 0xFFFFFFFF then hi else hi + 1
    Site.index (.buckets lo stop (max bucket 1))

/-- Asks the index, then the source. -/
def report (bucket : UInt32) : Program (Site Body) StatusReport := do
  let indexed ← Site.index .bounds
  let counts ← countAll IndexName.all
  let buckets ← bucketsOf bucket indexed
  let sourceFirst ← Site.history .firstSeq
  let sourceLast ← Site.history .lastSeq
  let sourceGaps ← Site.history .gaps
  pure { indexed, counts, buckets, sourceFirst, sourceLast, sourceGaps }

end Status

end LedgerSearch
