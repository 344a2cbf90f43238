import LedgerSearch.Failure
import LedgerSearch.Json.Basic

/-
  How many documents of each kind one or more ledgers gave.
-/

namespace LedgerSearch

/-- How many documents of each kind were written. -/
structure Stats where
  ledgers : Nat := 0
  transactions : Nat := 0
  operations : Nat := 0
  balances : Nat := 0
  trades : Nat := 0
  offerEvents : Nat := 0
  signers : Nat := 0
deriving DecidableEq

namespace Stats

/-- All documents. -/
def documents (s : Stats) : Nat :=
  s.ledgers + s.transactions + s.operations + s.balances + s.trades + s.offerEvents + s.signers

/-- Kind by kind. -/
protected def add (s t : Stats) : Stats :=
  ⟨s.ledgers + t.ledgers, s.transactions + t.transactions, s.operations + t.operations,
    s.balances + t.balances, s.trades + t.trades, s.offerEvents + t.offerEvents,
    s.signers + t.signers⟩

instance : Add Stats := ⟨Stats.add⟩

/-- The sum, if every count fits 64 bits. -/
def checkedSum (s t : Stats) : Outcome Stats := do
  let ledgers ← checkedAdd UInt64.size s.ledgers t.ledgers
  let transactions ← checkedAdd UInt64.size s.transactions t.transactions
  let operations ← checkedAdd UInt64.size s.operations t.operations
  let balances ← checkedAdd UInt64.size s.balances t.balances
  let trades ← checkedAdd UInt64.size s.trades t.trades
  let offerEvents ← checkedAdd UInt64.size s.offerEvents t.offerEvents
  let signers ← checkedAdd UInt64.size s.signers t.signers
  pure ⟨ledgers, transactions, operations, balances, trades, offerEvents, signers⟩

/-- The number of all documents, if it fits 64 bits. -/
def checkedDocuments (s : Stats) : Outcome Nat :=
  [s.transactions, s.operations, s.balances, s.trades, s.offerEvents, s.signers].foldlM
    (checkedAdd UInt64.size) s.ledgers

/-- The counts and their sum. -/
def toJson (s : Stats) : Json :=
  .object [("ledgers", .nat s.ledgers), ("transactions", .nat s.transactions),
    ("operations", .nat s.operations), ("balances", .nat s.balances), ("trades", .nat s.trades),
    ("offer_events", .nat s.offerEvents), ("signers", .nat s.signers),
    ("documents", .nat s.documents)]

end Stats

end LedgerSearch
