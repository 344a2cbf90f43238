import Mathlib
import LedgerSearch.Proofs.Serialize.Emission

/-
  What the documents of a ledger are made from. A transaction enters them with its hash, envelope
  and verdict, and with its effects only if it succeeded; its index does nothing but find its fee
  charge (`TransactionRow.Alike`). Ledgers whose transactions are alike, one by one, are serialized
  alike, to the last document or to the same failure (`Serialize.ledger_congr`).
-/

namespace LedgerSearch

namespace TransactionRow

/-- What charging the fee changed, where a charge of the transaction's index is known. -/
def charge (fees : List FeeRow) (row : TransactionRow) : Option (List EntryChange) :=
  (Serialize.feeOf fees row.index).map (·.changes)

/-- The two transactions, each with the fee charges of its ledger, give the same documents: they
    agree in all but the index, and in their effects only if they succeeded. -/
structure Alike (fees fees' : List FeeRow) (row row' : TransactionRow) : Prop where
  hash : row.hash = row'.hash
  seq : row.seq = row'.seq
  envelope : row.envelope = row'.envelope
  feeCharged : row.result.feeCharged = row'.result.feeCharged
  code : row.result.code = row'.result.code
  success : row.isSuccess = row'.isSuccess
  results : row.isSuccess = true → row.result.operationResults = row'.result.operationResults
  changes : row.isSuccess = true → row.changes.operations = row'.changes.operations
  charge : row.isSuccess = true → row.charge fees = row'.charge fees'

end TransactionRow

open TransactionRow (Alike)

variable {fees fees' : List FeeRow} {row row' : TransactionRow}

theorem TransactionDoc.ofRow_congr (h : Alike fees fees' row row') (order : UInt8)
    (closeTime : CloseTime) : ofRow row order closeTime = ofRow row' order closeTime := by
  simp only [ofRow, h.hash, h.seq, h.envelope, h.feeCharged, h.code, h.success]

/-- The counts of a ledger are those of its transactions and of their operations. -/
theorem LedgerDoc.ofRows_congr {txs txs' : List TransactionRow}
    (h : List.Forall₂ (Alike fees fees') txs txs') (ledger : LedgerRow) :
    ofRows ledger txs = ofRows ledger txs' := by
  have hcounts : (txs.filter (·.isSuccess)).map
        (fun tx => tx.envelope.operations.length % UInt32.size) =
      (txs'.filter (·.isSuccess)).map
        fun tx => tx.envelope.operations.length % UInt32.size := by
    induction h with
    | nil => rfl
    | cons hrow _ ih =>
      rw [List.filter_cons, List.filter_cons, hrow.success]
      split
      · rw [List.map_cons, List.map_cons, hrow.envelope, ih]
      · exact ih
  have happlied : (txs.filter (·.isSuccess)).length = (txs'.filter (·.isSuccess)).length := by
    simpa using congrArg List.length hcounts
  simp only [ofRows, hcounts, happlied, h.length_eq]

namespace Serialize

/-- Of a fee charge only its changes are read. -/
theorem feeBalances_congr (h : row.charge fees = row'.charge fees') (ledger : LedgerRow)
    (tx : TransactionDoc) :
    feeBalances ledger fees row tx = feeBalances ledger fees' row' tx := by
  unfold TransactionRow.charge at h
  unfold feeBalances
  cases hfee : feeOf fees row.index with
  | none =>
    rw [hfee, Option.map_none, eq_comm, Option.map_eq_none_iff] at h
    rw [h]
  | some fee =>
    rw [hfee, Option.map_some, eq_comm] at h
    obtain ⟨fee', hfee', hchanges⟩ := Option.map_eq_some_iff.mp h
    rw [hfee']
    simp only [hchanges]

theorem resultAt_congr (h : Alike fees fees' row row') (position : Nat) :
    resultAt row position = resultAt row' position := by
  unfold resultAt
  rw [← h.success]
  split
  · next hsuccess => rw [h.results hsuccess]
  · rfl

theorem effectsOf_congr (h : Alike fees fees' row row') (ledger : LedgerRow) (tx : TransactionDoc) :
    effectsOf ledger fees row tx = effectsOf ledger fees' row' tx := by
  unfold effectsOf
  rw [← h.success]
  split
  · next hsuccess =>
    rw [transactionEffects_eq, transactionEffects_eq, feeBalances_congr (h.charge hsuccess),
      h.changes hsuccess]
  · rfl

theorem effectsAt_congr (h : Alike fees fees' row row') (position : Nat) (doc : OperationDoc) :
    effectsAt row position doc = effectsAt row' position doc := by
  unfold effectsAt
  rw [← h.success, ← resultAt_congr h]
  split
  · next hsuccess => rw [h.changes hsuccess]
  · rfl

theorem operationsFrom_congr (h : Alike fees fees' row row') (tx : TransactionDoc) (position : Nat)
    (ops : List Operation) :
    operationsFrom row tx position ops = operationsFrom row' tx position ops := by
  induction ops generalizing position with
  | nil => rfl
  | cons op rest ih =>
    rw [operationsFrom_cons, operationsFrom_cons, resultAt_congr h, ih]
    simp only [effectsAt_congr h]

theorem transaction_congr (h : Alike fees fees' row row') (ledger : LedgerRow) (position : Nat) :
    transaction ledger fees position row = transaction ledger fees' position row' := by
  rw [transaction_eq, transaction_eq, h.envelope]
  simp only [TransactionDoc.ofRow_congr h, effectsOf_congr h, operationsFrom_congr h]

theorem transactionsFrom_congr {txs txs' : List TransactionRow}
    (h : List.Forall₂ (Alike fees fees') txs txs') (ledger : LedgerRow) (position : Nat) :
    transactionsFrom ledger fees position txs = transactionsFrom ledger fees' position txs' := by
  induction h generalizing position with
  | nil => rfl
  | cons hrow _ ih => rw [transactionsFrom, transactionsFrom, transaction_congr hrow, ih]

/-- A ledger of transactions that are alike, one by one. -/
theorem ledger_congr {txs txs' : List TransactionRow}
    (h : List.Forall₂ (Alike fees fees') txs txs') (row : LedgerRow) :
    ledger row txs fees = ledger row txs' fees' := by
  unfold ledger
  rw [LedgerDoc.ofRows_congr h, transactionsFrom_congr h]

end Serialize

end LedgerSearch
