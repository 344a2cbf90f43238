import LedgerSearch.Number.Binary64

/-
  The counters of the program and the text in which they are exposed. A counter starts again at
  zero after 2 ^ 64 - 1.
-/

namespace LedgerSearch

/-- What is counted over the life of the program. -/
inductive Counter where
  | ledgersSerialized
  | documentsWritten
  | bulkRequests
  | bulkRetries
  | bulkFailures
  | missingLedgers
  | unindexableLedgers
deriving DecidableEq

namespace Counter

/-- All counters in the order of their names. -/
def all : List Counter :=
  [.bulkFailures, .bulkRequests, .bulkRetries, .documentsWritten, .ledgersSerialized,
    .missingLedgers, .unindexableLedgers]

/-- The name a counter is scraped under. -/
def name : Counter → String
  | .ledgersSerialized => "ledger_indexer_ledgers_serialized_total"
  | .documentsWritten => "ledger_indexer_documents_written_total"
  | .bulkRequests => "ledger_indexer_bulk_requests_total"
  | .bulkRetries => "ledger_indexer_bulk_retries_total"
  | .bulkFailures => "ledger_indexer_bulk_failures_total"
  | .missingLedgers => "ledger_indexer_missing_ledgers_total"
  | .unindexableLedgers => "ledger_indexer_unindexable_ledgers_total"

/-- The help text that is scraped with the counter. -/
def help : Counter → String
  | .ledgersSerialized => "Ledgers serialized into documents"
  | .documentsWritten => "Documents accepted by the index"
  | .bulkRequests => "Bulk requests sent"
  | .bulkRetries => "Bulk requests retried after a failure"
  | .bulkFailures => "Batches skipped after exhausting retries"
  | .missingLedgers => "Ledgers found missing by gap scans"
  | .unindexableLedgers => "Ledgers dropped because their ordering fields overflow a paging token"

end Counter

/-- The values of all counters. -/
abbrev Metrics := Counter → UInt64

namespace Metrics

/-- Nothing has happened yet. -/
def zero : Metrics := fun _ => 0

/-- Adds to one counter; it wraps past 64 bits. -/
def increment (m : Metrics) (c : Counter) (n : Nat) : Metrics := fun c' =>
  if c' = c then m c + UInt64.ofNat n else m c'

/-- A counter with its value, which is printed as the nearest double. -/
def sample (m : Metrics) (c : Counter) : String :=
  s!"{c.name} {(Number.Binary64.ofNat (m c).toNat).wholeText}"

/-- The lines without the comments. -/
def samples (m : Metrics) : List String := Counter.all.map m.sample

/-- The page that is scraped: three lines for each counter. -/
def lines (m : Metrics) : List String :=
  Counter.all.flatMap fun c =>
    [s!"# HELP {c.name} {c.help}", s!"# TYPE {c.name} counter", m.sample c]

end Metrics

end LedgerSearch
