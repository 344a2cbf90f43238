import LedgerSearch.Document.Value
import LedgerSearch.Record.Row
import LedgerSearch.Token

/-
  The document of a ledger: its header and what was applied in it.
-/

namespace LedgerSearch

/-- What is stored of a ledger: its header row and the counts of its transactions. -/
structure LedgerDoc where
  ledger : LedgerRow
  successful : UInt32
  failed : UInt32
  /-- Operations of the successful transactions. -/
  operations : UInt32
deriving DecidableEq

namespace LedgerDoc

/-- The place of the ledger itself. -/
def token (d : LedgerDoc) : Token := .ofLedger d.ledger.seq

/-- The sum of 32-bit counts, if it is one. -/
def sumCounts : Nat → List Nat → Outcome Nat
  | total, [] => pure total
  | total, n :: rest => do
    let total ← checkedAdd UInt32.size total n
    sumCounts total rest

/-- Counts are taken in 32 bits; a sum or a difference that leaves them stops the program. -/
def ofRows (ledger : LedgerRow) (txs : List TransactionRow) : Outcome LedgerDoc := do
  let applied := txs.filter (·.isSuccess)
  let successful := UInt32.ofNat applied.length
  let operations ← sumCounts 0 (applied.map fun tx => tx.envelope.operations.length % UInt32.size)
  let failed ← checkedSub (txs.length % UInt32.size) successful.toNat
  pure ⟨ledger, successful, UInt32.ofNat failed, UInt32.ofNat operations⟩

def toJson (d : LedgerDoc) : Json :=
  let h := d.ledger.header
  .object [
    ("paging_token", d.token.toJson),
    ("hash", .hash d.ledger.hash),
    ("prev_hash", .hash h.previousHash),
    ("bucket_list_hash", .hash h.bucketHash),
    ("seq", .uint32 h.seq),
    ("close_time", .time d.ledger.closeTime),
    ("version", .uint32 h.version),
    ("total_coins", .amount h.totalCoins),
    ("fee_pool", .amount h.feePool),
    ("inflation_seq", .uint32 h.inflationSeq),
    ("id_pool", .uint64 h.idPool),
    ("base_fee", .uint32 h.baseFee),
    ("base_reserve", .uint32 h.baseReserve),
    ("max_tx_set_size", .uint32 h.maxTxSetSize),
    ("successful_transaction_count", .uint32 d.successful),
    ("failed_transaction_count", .uint32 d.failed),
    ("operation_count", .uint32 d.operations)]

end LedgerDoc

end LedgerSearch
