import LedgerSearch.Document.Value
import LedgerSearch.Record.Row
import LedgerSearch.Token

/-
  The document of a transaction.
-/

namespace LedgerSearch

/-- What is stored of a transaction. -/
structure TransactionDoc where
  id : Hash
  seq : UInt32
  /-- The one-based place of the transaction in its ledger. -/
  order : UInt8
  closeTime : CloseTime
  account : AccountId
  accountSequence : Int64
  feeAccount : AccountId
  feeBump : Bool
  maxFee : Int64
  feeCharged : Int64
  operationCount : UInt32
  successful : Bool
  resultCode : Int32
  memo : Memo
  timeBounds : Option TimeBounds
deriving DecidableEq

namespace TransactionDoc

/-- The place of the transaction in its ledger. -/
def token (d : TransactionDoc) : Token := .ofTransaction d.seq d.order

/-- The sequence number and the memo are those of the inner transaction where there is one. -/
def ofRow (row : TransactionRow) (order : UInt8) (closeTime : CloseTime) : TransactionDoc where
  id := row.hash
  seq := row.seq
  order
  closeTime
  account := row.envelope.source
  accountSequence := row.envelope.tx.seqNum
  feeAccount := row.envelope.feeAccount
  feeBump := row.envelope.isFeeBump
  maxFee := row.envelope.maxFee
  feeCharged := row.result.feeCharged
  operationCount := UInt32.ofNat row.envelope.operations.length
  successful := row.isSuccess
  resultCode := row.result.code
  memo := row.envelope.tx.memo
  timeBounds := row.envelope.tx.timeBounds

/-- The bounds of the time in which a transaction may be applied. -/
def boundsJson (b : TimeBounds) : Json :=
  .object [("min_time", .uint64 b.min), ("max_time", .uint64 b.max)]

/-- The document as it is stored; what the transaction does not have is left out. -/
def toJson (d : TransactionDoc) : Json :=
  .object <| [
    ("id", .hash d.id),
    ("paging_token", d.token.toJson),
    ("seq", .uint32 d.seq),
    ("index", .nat d.order.toNat),
    ("close_time", .time d.closeTime),
    ("account", .account d.account),
    ("account_sequence", .int64 d.accountSequence),
    ("fee_account", .account d.feeAccount),
    ("fee_bump", .bool d.feeBump),
    ("max_fee", .int64 d.maxFee),
    ("fee_charged", .int64 d.feeCharged),
    ("operation_count", .uint32 d.operationCount),
    ("successful", .bool d.successful),
    ("result_code", .int32 d.resultCode)] ++
    Json.field? "memo" d.memo.toJson? ++
    Json.field? "time_bounds" (d.timeBounds.map boundsJson)

end TransactionDoc

end LedgerSearch
