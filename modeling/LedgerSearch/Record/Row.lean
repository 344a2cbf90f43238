import LedgerSearch.CloseTime
import LedgerSearch.Record.Entry
import LedgerSearch.Record.Header
import LedgerSearch.Record.Result
import LedgerSearch.Record.Transaction

/-
  Closed ledgers, applied transactions and fee charges, as a source of history hands them out.
-/

namespace LedgerSearch

/-- A ledger as the database keeps it: its header under its hash. -/
structure LedgerRow where
  hash : Hash
  header : LedgerHeader
  closeTime : CloseTime
deriving DecidableEq

namespace LedgerRow

/-- A ledger whose header has a close time that is a date. -/
def ofHeader (hash : Hash) (header : LedgerHeader) : Except Error LedgerRow :=
  let seconds := header.value.closeTime
  match CloseTime.ofSeconds? seconds with
  | some t => .ok ⟨hash, header, t⟩
  | none => .error (.decode (.invalid s!"close time {seconds.toNat} out of range"))

/-- The number of the ledger, as its header tells it. -/
def seq (r : LedgerRow) : UInt32 := r.header.seq

end LedgerRow

/-- An applied transaction; `index` is its number within its ledger in the source. -/
structure TransactionRow where
  hash : Hash
  seq : UInt32
  index : UInt32
  envelope : Envelope
  result : TransactionResult
  changes : TransactionMeta
deriving DecidableEq

/-- Whether the transaction had its effects. -/
def TransactionRow.isSuccess (r : TransactionRow) : Bool := r.result.isSuccess

/-- The changes made by charging the fee of the transaction of that index. -/
structure FeeRow where
  hash : Hash
  seq : UInt32
  index : UInt32
  changes : List EntryChange
deriving DecidableEq

end LedgerSearch
