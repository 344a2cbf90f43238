import Mathlib
import LedgerSearch.Proofs.Serialize.Emission

/-
  The counts of a ledger: kept by hand beside each of the places where documents are written, they
  are the counts of the documents written (`Serialize.stats_ledger`).
-/

namespace LedgerSearch

namespace Stats

/-- The count of the documents of one index. -/
def ofIndex (s : Stats) : IndexName → Nat
  | .ledger => s.ledgers
  | .transaction => s.transactions
  | .operation => s.operations
  | .balance => s.balances
  | .trade => s.trades
  | .offer => s.offerEvents
  | .signerHistory => s.signers

/-- How many of the documents go to each index. -/
def ofDocuments (ds : List Document) : Stats :=
  let count (name : IndexName) : Nat := ds.countP (·.index = name)
  ⟨count .ledger, count .transaction, count .operation, count .balance, count .trade, count .offer,
    count .signerHistory⟩

theorem ofIndex_ofDocuments (ds : List Document) (name : IndexName) :
    (ofDocuments ds).ofIndex name = ds.countP (·.index = name) := by
  cases name <;> rfl

theorem ofDocuments_append (ds ds' : List Document) :
    ofDocuments (ds ++ ds') = ofDocuments ds + ofDocuments ds' := by
  show Stats.mk .. = Stats.mk ..
  congr 1 <;> exact List.countP_append

theorem ofDocuments_cons (d : Document) (ds : List Document) :
    ofDocuments (d :: ds) = ofDocuments [d] + ofDocuments ds := ofDocuments_append [d] ds

theorem documents_add (s t : Stats) : (s + t).documents = s.documents + t.documents := by
  show (Stats.mk ..).documents = _
  simp only [documents]
  omega

/-- Every document goes to one of the indexes. -/
theorem documents_ofDocuments (ds : List Document) : (ofDocuments ds).documents = ds.length := by
  induction ds with
  | nil => rfl
  | cons d rest ih =>
    rw [ofDocuments_cons, documents_add, ih, List.length_cons, Nat.add_comm]
    cases d <;> rfl

theorem ext_ofIndex {s t : Stats} (h : ∀ name, s.ofIndex name = t.ofIndex name) : s = t := by
  show Stats.mk .. = Stats.mk ..
  congr 1
  · exact h .ledger
  · exact h .transaction
  · exact h .operation
  · exact h .balance
  · exact h .trade
  · exact h .offer
  · exact h .signerHistory

/-- Documents that all go to one index. -/
theorem eq_ofDocuments_map {Doc : Type} {f : Doc → Document} {name : IndexName} {docs : List Doc}
    {s : Stats} (hf : ∀ d, (f d).index = name)
    (hs : ∀ other, s.ofIndex other = if name = other then docs.length else 0) :
    s = ofDocuments (docs.map f) := by
  refine ext_ofIndex fun other => ?_
  rw [hs, ofIndex_ofDocuments, List.countP_map]
  by_cases hname : name = other
  · rw [if_pos hname]
    exact (List.countP_eq_length.mpr fun d _ => decide_eq_true ((hf d).trans hname)).symm
  · rw [if_neg hname]
    exact (List.countP_eq_zero.mpr fun d _ h =>
      hname ((hf d).symm.trans (of_decide_eq_true h))).symm

end Stats

namespace Serialize

open Stats

variable {ds : List Document} {s : Stats}

theorem stats_balances {c : BalanceDoc.Context} {changes : List EntryChange}
    (h : balances c changes = ⟨ds, .ok s⟩) : s = ofDocuments ds := by
  obtain ⟨docs, -, rfl, rfl⟩ := balances_eq_ok.mp h
  exact eq_ofDocuments_map (fun _ => rfl) fun other => by cases other <;> rfl

theorem stats_pure (h : (pure {} : Emit Stats) = ⟨ds, .ok s⟩) : s = ofDocuments ds := by
  obtain ⟨rfl, rfl⟩ := Emit.pure_eq_ok.mp h
  rfl

theorem stats_effectsOf {ledger : LedgerRow} {fees : List FeeRow} {row : TransactionRow}
    {tx : TransactionDoc} (h : effectsOf ledger fees row tx = ⟨ds, .ok s⟩) :
    s = ofDocuments ds := by
  rcases effectsOf_cases h with ⟨rfl, rfl⟩ | h
  · rfl
  · obtain ⟨ds₁, fee, events, hfee, -, rfl, rfl⟩ := transactionEffects_eq_ok.mp h
    have hf : fee = ofDocuments ds₁ := by
      rcases feeBalances_cases hfee with ⟨rfl, rfl⟩ | ⟨_, hfee⟩
      · rfl
      · exact stats_balances hfee
    have he : { offerEvents := events.length } = ofDocuments (events.map .offer) :=
      eq_ofDocuments_map (fun _ => rfl) fun other => by cases other <;> rfl
    rw [ofDocuments_append, ← hf, ← he]

theorem stats_trades {doc : OperationDoc} {result : Option OperationResult}
    (h : trades doc result = ⟨ds, .ok s⟩) : s = ofDocuments ds := by
  rcases trades_eq_ok.mp h with ⟨-, rfl, rfl⟩ | ⟨r, docs, -, -, rfl, rfl⟩
  · rfl
  · exact eq_ofDocuments_map (fun _ => rfl) fun other => by cases other <;> rfl

theorem stats_signers {doc : OperationDoc} (h : signers doc = ⟨ds, .ok s⟩) :
    s = ofDocuments ds := by
  obtain ⟨rfl, rfl⟩ := signers_eq_ok.mp h
  cases SignerDoc.ofOperation? doc <;> rfl

theorem stats_effectsAt {row : TransactionRow} {position : Nat} {doc : OperationDoc}
    (h : effectsAt row position doc = ⟨ds, .ok s⟩) : s = ofDocuments ds := by
  rcases effectsAt_cases h with ⟨rfl, rfl⟩ | h
  · rfl
  · obtain ⟨ds₁, moved, ds₂, traded, ds₃, signed, hm, ht, hs, rfl, rfl⟩ :=
      operationEffects_eq_ok.mp h
    have hmoved : moved = ofDocuments ds₁ := by
      rcases movedBalances_cases hm with ⟨rfl, rfl⟩ | ⟨_, hm⟩
      · rfl
      · exact stats_balances hm
    rw [ofDocuments_append, ofDocuments_append, ← hmoved, ← stats_trades ht, ← stats_signers hs,
      add_assoc]

theorem stats_operationsFrom {row : TransactionRow} {tx : TransactionDoc} {position : Nat}
    {ops : List Operation} (h : operationsFrom row tx position ops = ⟨ds, .ok s⟩) :
    s = ofDocuments ds := by
  induction ops generalizing position ds s with
  | nil => exact stats_pure h
  | cons op rest ih =>
    obtain ⟨doc, ds₁, effects, ds₂, more, -, he, hr, rfl, rfl⟩ := operationsFrom_cons_eq_ok.mp h
    rw [ofDocuments_cons, ofDocuments_append, ← stats_effectsAt he, ← ih hr, ← add_assoc]
    rfl

theorem stats_transaction {ledger : LedgerRow} {fees : List FeeRow} {position : Nat}
    {row : TransactionRow} (h : transaction ledger fees position row = ⟨ds, .ok s⟩) :
    s = ofDocuments ds := by
  obtain ⟨order, ds₁, effects, ds₂, operations, -, he, ho, rfl, rfl⟩ := transaction_eq_ok.mp h
  rw [ofDocuments_cons, ofDocuments_append, ← stats_effectsOf he, ← stats_operationsFrom ho,
    ← add_assoc]
  rfl

theorem stats_transactionsFrom {ledger : LedgerRow} {fees : List FeeRow} {position : Nat}
    {txs : List TransactionRow} (h : transactionsFrom ledger fees position txs = ⟨ds, .ok s⟩) :
    s = ofDocuments ds := by
  induction txs generalizing position ds s with
  | nil => exact stats_pure h
  | cons row rest ih =>
    obtain ⟨ds₁, this, ds₂, more, ht, hr, rfl, rfl⟩ := transactionsFrom_cons_eq_ok.mp h
    rw [ofDocuments_append, ← stats_transaction ht, ← ih hr]

/-- The counts of a ledger are those of its documents. -/
theorem stats_ledger {row : LedgerRow} {txs : List TransactionRow} {fees : List FeeRow}
    (h : ledger row txs fees = ⟨ds, .ok s⟩) : s = ofDocuments ds := by
  obtain ⟨doc, ds₁, rest, -, hr, rfl, rfl⟩ := ledger_eq_ok.mp h
  rw [ofDocuments_cons, ← stats_transactionsFrom hr]
  rfl

end Serialize

end LedgerSearch
