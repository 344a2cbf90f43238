import LedgerSearch.Serialize.Emit
import LedgerSearch.Serialize.Stats

/-
  One ledger as documents in the order of their tokens: the ledger; for each transaction its
  document, fee balances and offer events; for each of its operations the document, balances,
  trades and signer change. Only a successful transaction has effects.
-/

namespace LedgerSearch

namespace Serialize

open Emit

/-- The fee charge of the transaction of that index; of several the last one counts. -/
def feeOf (fees : List FeeRow) (index : UInt32) : Option FeeRow :=
  fees.reverse.find? (·.index = index)

/-- The moves of balances that changes tell of. -/
def balances (c : BalanceDoc.Context) (changes : List EntryChange) : Emit Stats := do
  let docs ← ofOutcome (BalanceDoc.ofChanges c changes)
  writeAll (docs.map .balance)
  pure { balances := docs.length }

/-- What charging the fee changed, and the offers the transaction touched. -/
def transactionEffects (ledger : LedgerRow) (fees : List FeeRow) (row : TransactionRow)
    (tx : TransactionDoc) : Emit Stats := do
  let fee ← match feeOf fees row.index with
    | some fee => balances ⟨(Token.ofGroup .fee).merge tx.token, .fee, ledger.closeTime⟩ fee.changes
    | none => pure {}
  let events ← ofOutcome (OfferEvent.ofOperations
    ⟨(Token.ofGroup .offer).merge tx.token, tx.seq, ledger.closeTime⟩ row.changes.operations)
  writeAll (events.map .offer)
  pure (fee + { offerEvents := events.length })

/-- The trades an operation made, if its result is known. -/
def trades (doc : OperationDoc) (result : Option OperationResult) : Emit Stats := do
  match result with
  | some result =>
    let docs ← ofOutcome (TradeDoc.ofResult doc result)
    writeAll (docs.map .trade)
    pure { trades := docs.length }
  | none => pure {}

/-- The signer that an operation set, if it set one. -/
def signers (doc : OperationDoc) : Emit Stats := do
  match SignerDoc.ofOperation? doc with
  | some d =>
    write (.signer d)
    pure { signers := 1 }
  | none => pure {}

/-- What a successful operation changed. -/
def operationEffects (doc : OperationDoc) (changes : Option (List EntryChange))
    (result : Option OperationResult) : Emit Stats := do
  let moved ← match changes with
    | some changes =>
      balances ⟨(Token.ofGroup .balance).merge doc.token, .operation, doc.closeTime⟩ changes
    | none => pure {}
  let traded ← trades doc result
  let signed ← signers doc
  pure (moved + traded + signed)

/-- The operations of a transaction from zero-based `position` on. -/
def operationsFrom (row : TransactionRow) (tx : TransactionDoc) (position : Nat) :
    List Operation → Emit Stats
  | [] => pure {}
  | op :: rest => do
    -- a failed transaction may carry results, which tell of nothing that happened
    let result := if row.isSuccess then row.result.operationResults[position]? else none
    let doc ← ofOutcome (OperationDoc.ofOperation tx op result position)
    write (.operation doc)
    let effects ← if row.isSuccess then
        operationEffects doc row.changes.operations[position]? result
      else pure {}
    let more ← operationsFrom row tx (position + 1) rest
    pure ({ operations := 1 } + effects + more)

/-- The document of a transaction, its effects if it had any, then its operations. -/
def transaction (ledger : LedgerRow) (fees : List FeeRow) (position : Nat) (row : TransactionRow) :
    Emit Stats := do
  let order ← ofOutcome (orderOfPosition "transaction_order" position)
  let tx := TransactionDoc.ofRow row order ledger.closeTime
  write (.transaction tx)
  let effects ← if row.isSuccess then transactionEffects ledger fees row tx else pure {}
  let operations ← operationsFrom row tx 0 row.envelope.operations
  pure ({ transactions := 1 } + effects + operations)

/-- The transactions of a ledger from zero-based `position` on. -/
def transactionsFrom (ledger : LedgerRow) (fees : List FeeRow) (position : Nat) :
    List TransactionRow → Emit Stats
  | [] => pure {}
  | row :: rest => do
    let this ← transaction ledger fees position row
    let more ← transactionsFrom ledger fees (position + 1) rest
    pure (this + more)

/-- All documents of a ledger. `txs` and `fees` are those of the ledger, in the order in which they
    were applied. -/
def ledger (row : LedgerRow) (txs : List TransactionRow) (fees : List FeeRow) : Emit Stats := do
  let doc ← ofOutcome (LedgerDoc.ofRows row txs)
  write (.ledger doc)
  let rest ← transactionsFrom row fees 0 txs
  pure ({ ledgers := 1 } + rest)

end Serialize

end LedgerSearch
