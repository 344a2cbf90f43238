import Mathlib
import LedgerSearch.Proofs.Serialize.AlikeRows
import LedgerSearch.Proofs.Serialize.DocumentIds
import LedgerSearch.Proofs.Serialize.LedgerDemands

/-
  What a ledger's documents say of a transaction that failed. Nothing of what it would have changed,
  was charged or came to operation by operation: another account of all this, under the same code
  and fee, makes the same documents. It stands in them with its own document and one for each of its
  operations, none of which has a result (`Serialize.ledger_failed`).
-/

namespace LedgerSearch

/-- The charge with other changes, if it has the index. -/
def FeeRow.recharge (index : UInt32) (changes : List EntryChange) (fee : FeeRow) : FeeRow :=
  if fee.index = index then { fee with changes } else fee

theorem FeeRow.index_recharge (index : UInt32) (changes : List EntryChange) (fee : FeeRow) :
    (fee.recharge index changes).index = fee.index := by
  unfold recharge
  split <;> rfl

namespace TransactionRow

variable {fees : List FeeRow} {row : TransactionRow}

/-- A charge of another index is found as it was. -/
theorem charge_recharge {index : UInt32} (hne : row.index ≠ index) (changes : List EntryChange) :
    row.charge (fees.map (·.recharge index changes)) = row.charge fees := by
  unfold charge Serialize.feeOf
  rw [← List.map_reverse, List.find?_map, Option.map_map]
  simp only [Function.comp_def, FeeRow.index_recharge]
  refine Option.map_congr fun fee hfee => ?_
  have hfound := List.find?_some hfee
  have hindex : fee.index ≠ index := of_decide_eq_true hfound ▸ hne
  rw [FeeRow.recharge, if_neg hindex]

theorem alike_recharge {index : UInt32} (hne : row.index ≠ index) (changes : List EntryChange) :
    Alike (fees.map (·.recharge index changes)) fees row row :=
  ⟨rfl, rfl, rfl, rfl, rfl, rfl, fun _ => rfl, fun _ => rfl, fun _ => charge_recharge hne changes⟩

/-- Two accounts of one failed transaction. -/
theorem alike_of_failed {fees' : List FeeRow} {result : TransactionResult}
    {changes : TransactionMeta} (hfailed : row.isSuccess = false)
    (hresult : result.isSuccess = false) (hcode : result.code = row.result.code)
    (hcharged : result.feeCharged = row.result.feeCharged) :
    Alike fees' fees { row with result, changes } row := by
  have hnever : ({ row with result, changes } : TransactionRow).isSuccess ≠ true :=
    ne_true_of_eq_false hresult
  exact ⟨rfl, rfl, rfl, hcharged, hcode, hresult.trans hfailed.symm, fun h => absurd h hnever,
    fun h => absurd h hnever, fun h => absurd h hnever⟩

end TransactionRow

namespace Serialize

open TransactionRow (alike_recharge alike_of_failed)

variable {row : LedgerRow} {fees : List FeeRow} {tx : TransactionRow} {position : ℕ}
  {ds : List Document} {s : Stats}

/-! ## The documents of a failed transaction -/

theorem operationsFrom_failed (hfailed : tx.isSuccess = false) {doc : TransactionDoc}
    {ops : List Operation} (h : operationsFrom tx doc position ops = ⟨ds, .ok s⟩) :
    ∃ docs : List OperationDoc, ds = docs.map .operation ∧
      ops.mapIdx (fun j op => OperationDoc.ofOperation doc op none (position + j)) =
        docs.map .ok := by
  induction ops generalizing position ds s with
  | nil =>
    obtain ⟨rfl, -⟩ := Emit.pure_eq_ok.mp h
    exact ⟨[], rfl, rfl⟩
  | cons op rest ih =>
    obtain ⟨first, ds₁, effects, ds₂, more, hfirst, he, hr, -, rfl⟩ :=
      operationsFrom_cons_eq_ok.mp h
    -- without success there is no result to look up and no effect to emit
    rw [resultAt, hfailed] at hfirst
    rw [effectsAt, hfailed] at he
    obtain ⟨rfl, -⟩ := Emit.pure_eq_ok.mp he
    obtain ⟨docs, rfl, hdocs⟩ := ih hr
    refine ⟨first :: docs, rfl, ?_⟩
    rw [List.mapIdx_cons, List.map_cons, ← hdocs]
    simp only [Nat.add_right_comm position 1, Nat.add_assoc]
    exact congrArg (· :: _) hfirst

/-- Its own document, then those of its operations, each made without a result. -/
theorem transaction_failed (hfailed : tx.isSuccess = false)
    (h : transaction row fees position tx = ⟨ds, .ok s⟩) :
    ∃ (order : UInt8) (docs : List OperationDoc), order.toNat = position + 1 ∧
      ds = .transaction (.ofRow tx order row.closeTime) :: docs.map .operation ∧
      tx.envelope.operations.mapIdx (fun j op =>
        OperationDoc.ofOperation (.ofRow tx order row.closeTime) op none j) = docs.map .ok := by
  obtain ⟨order, ds₁, effects, ds₂, operations, ho, he, hr, -, rfl⟩ := transaction_eq_ok.mp h
  rw [effectsOf, hfailed] at he
  obtain ⟨rfl, -⟩ := Emit.pure_eq_ok.mp he
  obtain ⟨docs, rfl, hdocs⟩ := operationsFrom_failed hfailed hr
  simp only [Nat.zero_add] at hdocs
  exact ⟨order, docs, orderOfPosition_eq_ok ho, rfl, hdocs⟩

/-- Nothing is asked of a failed transaction but places for itself and its operations. -/
theorem exists_transaction_failed (hfailed : tx.isSuccess = false) (hposition : position < 255)
    (hops : tx.envelope.operations.length ≤ 255) :
    ∃ ds s, transaction row fees position tx = ⟨ds, .ok s⟩ := by
  have hmeets : Meets (transaction row fees position tx).outcome (tx.demands fees position) :=
    meets_transaction (by omega)
  have hmet : ∀ d ∈ tx.demands fees position, d.Met := by
    intro d hd
    rw [TransactionRow.demands, hfailed] at hd
    rcases List.mem_append.mp hd with hd | hd
    · obtain rfl := List.mem_singleton.mp hd
      exact hposition
    · obtain ⟨j, op, hop, hd⟩ := mem_flatMap_zipIdx.mp hd
      rw [TransactionRow.operationDemands, hfailed] at hd
      obtain rfl := List.mem_singleton.mp hd
      obtain ⟨hj, -⟩ := List.getElem?_eq_some_iff.mp hop
      exact Nat.le_trans hj hops
  obtain ⟨s, hs⟩ := hmeets.exists_ok hmet
  exact ⟨_, s, by rw [← hs]⟩

/-! ## Its documents among those of a ledger -/

theorem split_transactionsFrom {txs txs' : List TransactionRow}
    (h : transactionsFrom row fees position (txs ++ txs') = ⟨ds, .ok s⟩) :
    ∃ ds₁ s₁ ds₂ s₂, transactionsFrom row fees position txs = ⟨ds₁, .ok s₁⟩ ∧
      transactionsFrom row fees (position + txs.length) txs' = ⟨ds₂, .ok s₂⟩ ∧
      ds = ds₁ ++ ds₂ := by
  induction txs generalizing position ds s with
  | nil => exact ⟨[], {}, ds, s, rfl, h, rfl⟩
  | cons tx rest ih =>
    obtain ⟨ds₁, this, ds₂, more, ht, hr, -, rfl⟩ := transactionsFrom_cons_eq_ok.mp h
    obtain ⟨ds₃, s₃, ds₄, s₄, hrest, hbehind, rfl⟩ := ih hr
    refine ⟨ds₁ ++ ds₃, this + s₃, ds₄, s₄, ?_, ?_, (List.append_assoc ..).symm⟩
    · exact transactionsFrom_cons_eq_ok.mpr ⟨ds₁, this, ds₃, s₃, ht, hrest, rfl, rfl⟩
    · rwa [List.length_cons, Nat.add_comm rest.length, ← Nat.add_assoc]

variable {before behind : List TransactionRow}

/-- The documents that bear the place of a transaction are those it is made into. -/
theorem filter_ledger (h : ledger row (before ++ tx :: behind) fees = ⟨ds, .ok s⟩) :
    ∃ s', transaction row fees before.length tx =
      ⟨ds.filter (·.token.transaction.toNat = before.length + 1), .ok s'⟩ := by
  obtain ⟨doc, _, rest, -, htxs, -, rfl⟩ := ledger_eq_ok.mp h
  obtain ⟨ds₁, s₁, _, s₂, hbefore, hfrom, rfl⟩ := split_transactionsFrom htxs
  obtain ⟨ds₂, this, ds₃, more, htx, hbehind, -, rfl⟩ := transactionsFrom_cons_eq_ok.mp hfrom
  rw [Nat.zero_add] at htx hbehind
  have hnone₁ : (Document.ledger doc :: ds₁).filter
      (·.token.transaction.toNat = before.length + 1) = [] := by
    refine List.filter_eq_nil_iff.mpr fun d hd heq => ?_
    have hplace := of_decide_eq_true heq
    rcases List.mem_cons.mp hd with rfl | hd
    · cases hplace
    · have := transaction_of_mem_transactionsFrom hbefore hd
      omega
  have hall : ds₂.filter (·.token.transaction.toNat = before.length + 1) = ds₂ :=
    List.filter_eq_self.mpr fun d hd => decide_eq_true (transaction_of_mem htx hd)
  have hnone₃ : ds₃.filter (·.token.transaction.toNat = before.length + 1) = [] := by
    refine List.filter_eq_nil_iff.mpr fun d hd heq => ?_
    have := transaction_of_mem_transactionsFrom hbehind hd
    have := of_decide_eq_true heq
    omega
  refine ⟨this, ?_⟩
  rw [← List.cons_append, List.filter_append, List.filter_append, hnone₁, hall, hnone₃,
    List.append_nil, List.nil_append, htx]

/-! ## Failed transactions of a ledger -/

/-- Where the indexes of its transactions differ, a ledger does not depend on what a failed one of
    them would have changed, what its fee charge changed and what its operations came to: other
    changes and another failure, of the same code and fee, make the same documents, or fail in the
    same way. And those of its documents that bear the place of the transaction are the
    transaction's own and one for each of its operations, which says that it did not succeed and
    nothing else of its outcome; to make these fails for nothing but the want of a place. -/
theorem ledger_failed (hindexes : ((before ++ tx :: behind).map (·.index)).Nodup)
    (hfailed : tx.isSuccess = false) :
    (∀ (result : TransactionResult) (changes : TransactionMeta) (charged : List EntryChange),
      result.isSuccess = false → result.code = tx.result.code →
      result.feeCharged = tx.result.feeCharged →
      ledger row (before ++ { tx with result, changes } :: behind)
        (fees.map (·.recharge tx.index charged)) = ledger row (before ++ tx :: behind) fees) ∧
    (∀ ds stats, ledger row (before ++ tx :: behind) fees = ⟨ds, .ok stats⟩ →
      ∃ (order : UInt8) (docs : List OperationDoc), order.toNat = before.length + 1 ∧
        ds.filter (·.token.transaction.toNat = before.length + 1) =
          .transaction (.ofRow tx order row.closeTime) :: docs.map .operation ∧
        tx.envelope.operations.mapIdx (fun j op =>
          OperationDoc.ofOperation (.ofRow tx order row.closeTime) op none j) = docs.map .ok ∧
        ∀ doc ∈ docs, doc.outcome = {} ∧
          Json.outcomeFields doc.outcome = [("succeeded", .bool false)]) ∧
    (before.length < 255 → tx.envelope.operations.length ≤ 255 →
      ∃ ds stats, transaction row fees before.length tx = ⟨ds, .ok stats⟩) := by
  rw [List.map_append, List.map_cons, List.nodup_append, List.nodup_cons] at hindexes
  obtain ⟨-, ⟨hbehind, -⟩, hbefore⟩ := hindexes
  refine ⟨?_, ?_, exists_transaction_failed hfailed⟩
  · intro result changes charged hresult hcode hcharged
    refine ledger_congr (List.rel_append ?_ (.cons ?_ ?_)) row
    -- the rows around the failed one have other indexes and keep their charges
    · refine List.forall₂_same.mpr fun other hother => alike_recharge (fun heq => ?_) charged
      exact hbefore _ (List.mem_map_of_mem hother) _ List.mem_cons_self heq
    · exact alike_of_failed hfailed hresult hcode hcharged
    · refine List.forall₂_same.mpr fun other hother => alike_recharge (fun heq => ?_) charged
      exact hbehind (heq ▸ List.mem_map_of_mem hother)
  · intro ds stats h
    obtain ⟨s', htx⟩ := filter_ledger h
    obtain ⟨order, docs, horder, hds, hdocs⟩ := transaction_failed hfailed htx
    refine ⟨order, docs, horder, hds, hdocs, fun doc hdoc => ?_⟩
    have hmem : Except.ok doc ∈ docs.map (Except.ok : OperationDoc → Outcome OperationDoc) :=
      List.mem_map_of_mem hdoc
    rw [← hdocs] at hmem
    obtain ⟨j, hj, hmade⟩ := List.mem_mapIdx.mp hmem
    rw [OperationDoc.outcome_ofOperation hmade]
    exact ⟨rfl, rfl⟩

/-- The first payment of a ledger, paid for by another and failed; the result of the payment itself
    need not say so. -/
def bumped (inner : InnerResult) : TransactionRow :=
  { Memory.Sample.transactionRow 6 1 with
    result := ⟨100, .feeBumpFailed ⟨Memory.Sample.txHash 6 1, 100, inner⟩⟩ }

/-- With its changes and charge it makes what it makes without them and with a payment that would
    have succeeded; the payment behind it keeps its effects. -/
theorem ledger_failed_bumped :
    ∃ (c : LedgerClose) (ds : List Document) (stats : Stats), c ∈ sampleCloses ∧
      ledger c.ledger [bumped (.failed []), Memory.Sample.transactionRow 6 2] c.fees =
        ⟨ds, .ok stats⟩ ∧
      ledger c.ledger [{ bumped (.success [.inner (.payment 0)]) with changes := .v0 [] },
        Memory.Sample.transactionRow 6 2] (c.fees.map (·.recharge 1 [])) = ⟨ds, .ok stats⟩ ∧
      (ds.filter (·.token.transaction.toNat = 1)).map (·.index) = [.transaction, .operation] ∧
      (ds.filter (·.token.transaction.toNat = 2)).map (·.index) =
        [.transaction, .balance, .operation, .balance, .balance] := by
  have hfirst : (sampleCloses.head?.map fun c =>
      let e := ledger c.ledger [bumped (.failed []), Memory.Sample.transactionRow 6 2] c.fees
      (e.outcome.toOption.isSome,
        (e.documents.filter (·.token.transaction.toNat = 2)).map (·.index))) =
      some (true, [.transaction, .balance, .operation, .balance, .balance]) := by
    decide +kernel
  obtain ⟨c, hc, hsample⟩ := Option.map_eq_some_iff.mp hfirst
  injection hsample with hok hother
  have hindexes : (([] ++ bumped (.failed []) :: [Memory.Sample.transactionRow 6 2]).map
      TransactionRow.index).Nodup := by decide
  obtain ⟨hsame, hplace, -⟩ := @ledger_failed c.ledger c.fees _ _ _ hindexes rfl
  cases hledger : ledger c.ledger [bumped (.failed []), Memory.Sample.transactionRow 6 2] c.fees with
  | mk ds o =>
  cases o with
  | error failure =>
    rw [hledger] at hok
    cases hok
  | ok stats =>
    rw [hledger] at hother
    obtain ⟨order, docs, -, hds, hdocs, -⟩ := hplace ds stats hledger
    refine ⟨c, ds, stats, List.mem_of_head? hc, hledger, ?_, ?_, hother⟩
    · have hagain := hsame (bumped (.success [.inner (.payment 0)])).result (.v0 []) [] rfl rfl rfl
      exact hagain.trans hledger
    · have hone : docs.length = 1 := by
        have := congrArg List.length hdocs
        rwa [List.length_mapIdx, List.length_map, eq_comm] at this
      obtain ⟨doc, rfl⟩ := List.length_eq_one_iff.mp hone
      exact congrArg (List.map Document.index) hds

end Serialize

end LedgerSearch
