import LedgerSearch.Bulk
import LedgerSearch.Serialize.Ledger

/-
  A run of ledgers as one bulk body. A ledger with too many transactions, operations or effects for
  a paging token is left out whole and reported.
-/

namespace LedgerSearch

/-- The rows of several ledgers. -/
structure Rows where
  transactions : List TransactionRow
  fees : List FeeRow

namespace Rows

/-- The transactions of one ledger, in the order of the table. -/
def transactionsOf (r : Rows) (seq : UInt32) : List TransactionRow :=
  r.transactions.filter (·.seq = seq)

/-- The fees of one ledger, in the order of the table. -/
def feesOf (r : Rows) (seq : UInt32) : List FeeRow := r.fees.filter (·.seq = seq)

end Rows

/-- What a run of ledgers came to. -/
structure Serialized where
  documents : List Document := []
  stats : Stats := {}
  /-- Ledgers left out. -/
  unindexable : List UInt32 := []
deriving DecidableEq

namespace Serialized

/-- What a later ledger wrote stands behind what the earlier ones wrote. -/
protected def append (s t : Serialized) : Serialized :=
  ⟨s.documents ++ t.documents, s.stats + t.stats, s.unindexable ++ t.unindexable⟩

instance : Append Serialized := ⟨Serialized.append⟩

/-- The body that the documents make. -/
def body (deployment : String) (s : Serialized) : String :=
  (BulkBody.ofDocuments deployment s.documents).text

/-- One ledger on its own. -/
def ofLedger (row : LedgerRow) (txs : List TransactionRow) (fees : List FeeRow) :
    Outcome Serialized :=
  let e := Serialize.ledger row txs fees
  match e.outcome with
  | .ok stats => .ok { documents := e.documents, stats }
  | .error (.error (.orderingOverflow _ _)) => .ok { unindexable := [row.seq] }
  | .error failure => .error failure

/-- The ledgers one after the other, each with the rows of its sequence: what came of those before
    the first that fails, and whether one did. -/
def ofLedgers (rows : Rows) : List LedgerRow → Serialized × Outcome Unit
  | [] => ({}, .ok ())
  | row :: rest =>
    match ofLedger row (rows.transactionsOf row.seq) (rows.feesOf row.seq) with
    | .error failure => ({}, .error failure)
    | .ok first =>
      let (more, outcome) := ofLedgers rows rest
      (first ++ more, outcome)

end Serialized

end LedgerSearch
