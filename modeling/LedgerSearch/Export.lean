import LedgerSearch.Delivery
import LedgerSearch.Serialize.Batch

/-
  Batches of ledgers: fetched from the source, made into one bulk body and delivered. Batches are
  independent of each other, so that several can be worked on at once.
-/

namespace LedgerSearch

/-- What became of one batch. -/
structure BatchReport where
  /-- The ledgers the source returned. -/
  fetched : List UInt32 := []
  stats : Stats := {}
  unindexable : List UInt32 := []
  written : Bool
deriving DecidableEq

/-- The report of one batch, in the order of its fields. -/
def BatchReport.toJson (r : BatchReport) : Json :=
  .object [("fetched", .seqs r.fetched), ("stats", r.stats.toJson),
    ("unindexable", .seqs r.unindexable), ("written", .bool r.written)]

/-- What became of several batches. -/
structure ExportReport where
  batches : Nat := 0
  fetched : List UInt32 := []
  stats : Stats := {}
  /-- The batches whose delivery failed for good. -/
  skipped : List Selection := []
  unindexable : List UInt32 := []
deriving DecidableEq

namespace ExportReport

/-- One more batch behind the earlier ones. -/
def absorb (r : ExportReport) (s : Selection) (b : BatchReport) : ExportReport where
  batches := r.batches + 1
  fetched := r.fetched ++ b.fetched
  stats := r.stats + b.stats
  skipped := if b.written then r.skipped else r.skipped ++ [s]
  unindexable := r.unindexable ++ b.unindexable

/-- The report of a whole export, the batches taken in the order they were cut. -/
def ofBatches (bs : List (Selection × BatchReport)) : ExportReport :=
  bs.foldl (fun r (s, b) => r.absorb s b) {}

/-- The report of a whole export, what was fetched and skipped as lists. -/
def toJson (r : ExportReport) : Json :=
  .object [("batches", .nat r.batches), ("fetched", .seqs r.fetched), ("stats", r.stats.toJson),
    ("skipped", .array (r.skipped.map (·.toJson))), ("unindexable", .seqs r.unindexable)]

end ExportReport

/-- Where the documents of ledgers go. -/
structure Exporter where
  /-- What the deployment puts in front of the names of its indexes. -/
  deployment : String
  writer : Writer

namespace Exporter

/-- Counts what came of ledgers; a failure stops the program after that. -/
def account {Body : Type} (result : Serialized × Outcome Unit) :
    Program (Site Body) Serialized := do
  let (s, outcome) := result
  Site.increment .ledgersSerialized s.stats.ledgers
  Site.increment .unindexableLedgers s.unindexable.length
  -- both counters have grown by now, even if the ledgers are not to be had
  .ofOutcome outcome
  pure s

/-- The documents of the ledgers, whose transactions and fee charges are fetched. -/
def serialize {Body : Type} (ledgers : List LedgerRow) : Program (Site Body) Serialized := do
  let seqs := ledgers.map (·.seq)
  let transactions ← Site.history (.transactionsOf seqs)
  let fees ← Site.history (.feesOf seqs)
  account (Serialized.ofLedgers ⟨transactions, fees⟩ ledgers)

/-- Delivers the documents in one request. -/
def deliver (e : Exporter) (s : Serialized) : Program (Site BulkBody) Delivery :=
  e.writer.write (BulkBody.ofDocuments e.deployment s.documents) s.stats.documents

/-- A range is asked for by its bounds and a list by its members. -/
def fetch {Body : Type} : Selection → Program (Site Body) (List LedgerRow)
  | .range start count => Site.history (.ledgersInRange start count)
  | .seqs seqs => Site.history (.ledgersBySeq seqs)

/-- One batch. Nothing is sent where the source returns no ledger. -/
def batch (e : Exporter) (s : Selection) : Program (Site BulkBody) BatchReport := do
  let ledgers ← fetch s
  if ledgers.isEmpty then pure { written := true }
  else do
    let out ← serialize ledgers
    let delivery ← e.deliver out
    pure { fetched := ledgers.map (·.seq), stats := out.stats, unindexable := out.unindexable,
           written := delivery.isWritten }

end Exporter

end LedgerSearch
