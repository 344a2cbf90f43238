import LedgerSearch.Export
import LedgerSearch.LedgerClose
import LedgerSearch.Wire.Frame

/-
  Indexing a stream of closed ledgers, frame by frame and in order. The stream cannot be read again,
  so a ledger that could not be delivered is reported and left to a gap fill.
-/

namespace LedgerSearch

/-- What became of the ledgers of a stream. -/
structure ReplayReport where
  ledgers : Nat := 0
  stats : Stats := {}
  /-- The ledgers whose delivery failed for good. -/
  skipped : List UInt32 := []
  unindexable : List UInt32 := []
deriving DecidableEq

/-- The report of a replay, in the order of its fields. -/
def ReplayReport.toJson (r : ReplayReport) : Json :=
  .object [("ledgers", .nat r.ledgers), ("stats", r.stats.toJson), ("skipped", .seqs r.skipped),
    ("unindexable", .seqs r.unindexable)]

/-- Which network the transactions are hashed for, and where the documents go. -/
structure Replay where
  network : Network
  exporter : Exporter

namespace Replay

/-- Indexes one ledger: the report with it added. -/
def ledger (e : Exporter) (r : ReplayReport) (c : LedgerClose) :
    Program (Site BulkBody) ReplayReport := do
  let out ← Exporter.account (Serialized.ofLedgers ⟨c.transactions, c.fees⟩ [c.ledger])
  let delivery ← e.deliver out
  pure { ledgers := r.ledgers + 1
         stats := r.stats + out.stats
         skipped := if delivery.isWritten then r.skipped else r.skipped ++ [c.seq]
         unindexable := r.unindexable ++ out.unindexable }

/-- Indexes the ledgers of the frames. -/
def frames (p : Replay) (r : ReplayReport) : List Bytes → Program (Site BulkBody) ReplayReport
  | [] => pure r
  | frame :: rest => do
    let c ← .ofResult (LedgerClose.decode p.network frame)
    let r ← ledger p.exporter r c
    frames p r rest

/-- Indexes a stream up to its end. An error of the stream counts once the frames before it are
    done. -/
def run (p : Replay) (s : Wire.FrameStream) : Program (Site BulkBody) ReplayReport := do
  let (all, ending) := s.all
  let report ← p.frames {} all
  .ofResult ending
  pure report

end Replay

end LedgerSearch
