import Mathlib
import LedgerSearch.Proofs.Serialize.FailedTransactions
import LedgerSearch.Proofs.Serialize.LedgerDemands

/-
  The counters inside the documents of a ledger. They are computed from the rows before the
  documents are written; the documents that follow are as many as they say
  (`Serialize.counters_ledger`).
-/

namespace LedgerSearch

/-! ## Kinds of documents -/

namespace Document

/-- What a transaction or an operation changed, apart from their own documents. -/
def isEffect : Document → Bool
  | .balance _ | .trade _ | .offer _ | .signer _ => true
  | .ledger _ | .transaction _ | .operation _ => false

/-- The document of a transaction, if it is one. -/
def transaction? : Document → Option TransactionDoc
  | .transaction d => some d
  | _ => none

/-- The document of an operation, if it is one. -/
def operation? : Document → Option OperationDoc
  | .operation d => some d
  | _ => none

end Document

open Document

/-- The documents of transactions, in order. -/
def transactionsIn (ds : List Document) : List TransactionDoc := ds.filterMap transaction?

/-- The documents of operations, in order. -/
def operationsIn (ds : List Document) : List OperationDoc := ds.filterMap operation?

/-- The operation documents that name the place of a transaction document. -/
def operationsOf (ds : List Document) (t : TransactionDoc) : List OperationDoc :=
  (operationsIn ds).filter (·.txOrder = t.order)

/-- Whether the transaction document of an operation document is successful. -/
def isApplied (ds : List Document) (o : OperationDoc) : Bool :=
  (transactionsIn ds).any fun t => t.order = o.txOrder && t.successful

/-- The documents without those of effects. -/
def withoutEffects (ds : List Document) : List Document := ds.filter (!·.isEffect)

section

variable {ds : List Document}

theorem withoutEffects_append (ds' : List Document) :
    withoutEffects (ds ++ ds') = withoutEffects ds ++ withoutEffects ds' := List.filter_append _ _

/-- Of a document, its effects and what follows, the effects are left out. -/
theorem withoutEffects_cons_append {d : Document} {effects : List Document}
    (hd : d.isEffect = false) (heffects : ∀ e ∈ effects, e.isEffect = true) :
    withoutEffects (d :: (effects ++ ds)) = d :: withoutEffects ds := by
  have hnil : withoutEffects effects = [] :=
    List.filter_eq_nil_iff.mpr fun e he => by rw [heffects e he]; exact Bool.false_ne_true
  rw [withoutEffects, List.filter_cons_of_pos (by rw [hd]; rfl), ← withoutEffects,
    withoutEffects_append, hnil, List.nil_append]

theorem transactionsIn_withoutEffects (ds : List Document) :
    transactionsIn (withoutEffects ds) = transactionsIn ds := by
  rw [transactionsIn, withoutEffects, List.filterMap_filter]
  exact List.filterMap_congr fun d _ => by cases d <;> rfl

theorem operationsIn_withoutEffects (ds : List Document) :
    operationsIn (withoutEffects ds) = operationsIn ds := by
  rw [operationsIn, withoutEffects, List.filterMap_filter]
  exact List.filterMap_congr fun d _ => by cases d <;> rfl

theorem transactionsIn_operations (os : List OperationDoc) :
    transactionsIn (os.map .operation) = [] := by
  rw [transactionsIn, List.filterMap_map]
  exact List.filterMap_eq_nil_iff.mpr fun _ _ => rfl

theorem operationsIn_operations (os : List OperationDoc) :
    operationsIn (os.map .operation) = os := by
  rw [operationsIn, List.filterMap_map]
  exact List.filterMap_some

end

/-! ## Transactions with their operations -/

/-- A transaction document with the documents of its operations. -/
structure TransactionPart where
  transaction : TransactionDoc
  operations : List OperationDoc
  named : ∀ o ∈ operations, o.txOrder = transaction.order
  numbered : operations.map (·.order.toNat) = List.range' 1 operations.length
  counted : transaction.operationCount.toNat = operations.length

/-- The transaction's own document, then those of its operations. -/
def TransactionPart.documents (p : TransactionPart) : List Document :=
  .transaction p.transaction :: p.operations.map .operation

/-- Apart from effects the documents are those of the parts, no two of which have one place. -/
structure Composed (ds : List Document) (ps : List TransactionPart) : Prop where
  documents : withoutEffects ds = ps.flatMap TransactionPart.documents
  nodup : (ps.map (·.transaction.order)).Nodup

namespace Composed

variable {ds : List Document} {ps : List TransactionPart} {p p' : TransactionPart}

theorem transactionsIn_eq (h : Composed ds ps) : transactionsIn ds = ps.map (·.transaction) := by
  have hpart (p : TransactionPart) : transactionsIn p.documents = [p.transaction] :=
    congrArg (p.transaction :: ·) (transactionsIn_operations p.operations)
  rw [← transactionsIn_withoutEffects, h.documents, transactionsIn, List.filterMap_flatMap,
    List.map_eq_flatMap]
  exact List.flatMap_congr fun p _ => hpart p

theorem operationsIn_eq (h : Composed ds ps) : operationsIn ds = ps.flatMap (·.operations) := by
  rw [← operationsIn_withoutEffects, h.documents, operationsIn, List.filterMap_flatMap]
  exact List.flatMap_congr fun p _ => operationsIn_operations p.operations

theorem eq_of_order (h : Composed ds ps) (hp : p ∈ ps) (hp' : p' ∈ ps)
    (horder : p.transaction.order = p'.transaction.order) : p = p' :=
  List.inj_on_of_nodup_map h.nodup hp hp' horder

/-- The operation documents that name a transaction document are those of its part. -/
theorem operationsOf_eq (h : Composed ds ps) (hp : p ∈ ps) :
    operationsOf ds p.transaction = p.operations := by
  have hself : p.operations.filter (·.txOrder = p.transaction.order) = p.operations :=
    List.filter_eq_self.mpr fun o ho => decide_eq_true (p.named o ho)
  have hother {cs : List TransactionPart}
      (hne : ∀ c ∈ cs, c.transaction.order ≠ p.transaction.order) :
      cs.flatMap (fun c => c.operations.filter (·.txOrder = p.transaction.order)) = [] := by
    refine List.flatMap_eq_nil_iff.mpr fun c hc => List.filter_eq_nil_iff.mpr fun o ho hname => ?_
    exact hne c hc ((c.named o ho).symm.trans (of_decide_eq_true hname))
  rw [operationsOf, h.operationsIn_eq, List.filter_flatMap]
  -- no other part has the place of this one, so the filter leaves its operations alone
  obtain ⟨front, back, rfl⟩ := List.append_of_mem hp
  have hnodup := h.nodup
  rw [List.map_append, List.map_cons, List.nodup_middle, List.nodup_cons, List.mem_append] at hnodup
  obtain ⟨hnew, -⟩ := hnodup
  rw [List.flatMap_append, List.flatMap_cons, hself, hother, hother, List.append_nil]
  · rfl
  · exact fun c hc heq => hnew (.inr (heq ▸ List.mem_map_of_mem hc))
  · exact fun c hc heq => hnew (.inl (heq ▸ List.mem_map_of_mem hc))

theorem isApplied_eq (h : Composed ds ps) (hp : p ∈ ps) {o : OperationDoc} (ho : o ∈ p.operations) :
    isApplied ds o = p.transaction.successful := by
  rw [isApplied, h.transactionsIn_eq, List.any_map, p.named o ho, Bool.eq_iff_iff, List.any_eq_true]
  constructor
  · rintro ⟨p', hp', hsame⟩
    obtain ⟨horder, hok⟩ := (Bool.and_eq_true _ _).mp hsame
    rw [h.eq_of_order hp hp' (of_decide_eq_true horder).symm]
    exact hok
  · exact fun hok => ⟨p, hp, (Bool.and_eq_true _ _).mpr ⟨decide_eq_true rfl, hok⟩⟩

/-- Applied are the operations of the successful transactions. -/
theorem countP_isApplied (h : Composed ds ps) : (operationsIn ds).countP (isApplied ds) =
    ((ps.filter (·.transaction.successful)).map (·.operations.length)).sum := by
  have hcount : ∀ p ∈ ps, p.operations.countP (isApplied ds) =
      if p.transaction.successful = true then p.operations.length else 0 := by
    intro p hp
    split
    · next hok =>
      exact List.countP_eq_length.mpr fun o ho => (h.isApplied_eq hp ho).trans hok
    · next hno =>
      exact List.countP_eq_zero.mpr fun o ho hok => hno ((h.isApplied_eq hp ho).symm.trans hok)
  rw [h.operationsIn_eq, List.countP_flatMap]
  refine (congrArg List.sum (List.map_congr_left hcount)).trans ?_
  rw [List.sum_map_ite]
  simp

end Composed

/-- The parts are those of the rows as far as success and the number of operations go. -/
def Mirrors (ps : List TransactionPart) (txs : List TransactionRow) : Prop :=
  ps.map (fun p => (p.transaction.successful, p.operations.length)) =
    txs.map fun tx => (tx.isSuccess, tx.envelope.operations.length)

namespace Mirrors

variable {ps : List TransactionPart} {txs : List TransactionRow}

theorem countP_eq (h : Mirrors ps txs) (f : Bool → Bool) :
    ps.countP (fun p => f p.transaction.successful) = txs.countP (fun tx => f tx.isSuccess) := by
  have hcount := congrArg (List.countP fun x => f x.1) h
  rw [List.countP_map, List.countP_map] at hcount
  exact hcount

theorem sum_eq (h : Mirrors ps txs) :
    ((ps.filter (·.transaction.successful)).map (·.operations.length)).sum =
      ((txs.filter (·.isSuccess)).map (·.envelope.operations.length)).sum := by
  have hsum := congrArg (fun l => ((l.filter (·.1)).map (·.2)).sum) h
  simp only [List.filter_map, List.map_map] at hsum
  exact hsum

theorem exists_length_eq (h : Mirrors ps txs) {tx : TransactionRow} (htx : tx ∈ txs) :
    ∃ p ∈ ps, p.operations.length = tx.envelope.operations.length := by
  have hmem : (tx.isSuccess, tx.envelope.operations.length) ∈
      ps.map fun p => (p.transaction.successful, p.operations.length) :=
    h ▸ List.mem_map_of_mem htx
  obtain ⟨p, hp, hsame⟩ := List.mem_map.mp hmem
  exact ⟨p, hp, (Prod.mk.inj hsame).2⟩

end Mirrors

/-! ## What a ledger writes -/

/-- Places that are counted from one on are at most 255. -/
theorem lt_of_numbered {α : Type} {place : α → UInt8} {l : List α} {n : ℕ}
    (h : l.map (fun a => (place a).toNat) = List.range' 1 n) : n < 256 := by
  by_contra hge
  have hmem : 256 ∈ List.range' 1 n := List.mem_range'_1.mpr (by omega)
  rw [← h] at hmem
  obtain ⟨a, -, ha⟩ := List.mem_map.mp hmem
  exact absurd ha (Nat.ne_of_lt (place a).toNat_lt)

namespace OperationDoc

theorem order_ofOperation {tx : TransactionDoc} {op : Operation} {result : Option OperationResult}
    {position : ℕ} {doc : OperationDoc} (h : ofOperation tx op result position = .ok doc) :
    doc.txOrder = tx.order ∧ doc.order.toNat = position + 1 := by
  obtain ⟨order, ho, h⟩ := Outcome.bind_eq_ok.mp h
  obtain rfl := Except.ok.inj h
  exact ⟨rfl, orderOfPosition_eq_ok ho⟩

end OperationDoc

namespace LedgerDoc

theorem counters_ofRows {row : LedgerRow} {txs : List TransactionRow} {doc : LedgerDoc}
    (h : ofRows row txs = .ok doc) (htxs : txs.length < UInt32.size)
    (hops : ∀ tx ∈ txs, tx.envelope.operations.length < UInt32.size) :
    doc.successful.toNat = txs.countP (·.isSuccess) ∧
      doc.failed.toNat = txs.countP (!·.isSuccess) ∧
      doc.operations.toNat =
        ((txs.filter (·.isSuccess)).map (·.envelope.operations.length)).sum := by
  obtain ⟨operations, hsum, h⟩ := Outcome.bind_eq_ok.mp h
  obtain ⟨failed, hfailed, h⟩ := Outcome.bind_eq_ok.mp h
  obtain rfl := Except.ok.inj h
  have hsplit : txs.length = txs.countP (·.isSuccess) + txs.countP (!·.isSuccess) := by
    rw [List.length_eq_countP_add_countP (fun tx : TransactionRow => tx.isSuccess)]
    simp
  have hsuccessful : (UInt32.ofNat (txs.filter (·.isSuccess)).length).toNat =
      txs.countP (·.isSuccess) := by
    rw [← List.countP_eq_length_filter, UInt32.toNat_ofNat_of_lt' (by omega)]
  have hcounts : (txs.filter (·.isSuccess)).map (fun tx =>
      tx.envelope.operations.length % UInt32.size) =
        (txs.filter (·.isSuccess)).map (·.envelope.operations.length) :=
    List.map_congr_left fun tx htx => Nat.mod_eq_of_lt (hops tx (List.mem_of_mem_filter htx))
  rw [hcounts, sumCounts_eq (by decide), Nat.zero_add] at hsum
  rw [hsuccessful, Nat.mod_eq_of_lt htxs, checkedSub, if_pos (by omega)] at hfailed
  obtain rfl := Except.ok.inj hfailed
  split at hsum
  · next hlt =>
    obtain rfl := Except.ok.inj hsum
    refine ⟨hsuccessful, ?_, UInt32.toNat_ofNat_of_lt' hlt⟩
    show (UInt32.ofNat (txs.length - _)).toNat = _
    rw [UInt32.toNat_ofNat_of_lt' (by omega)]
    omega
  · cases hsum

end LedgerDoc

namespace Serialize

variable {ds : List Document} {s : Stats}

theorem isEffect_balances {c : BalanceDoc.Context} {changes : List EntryChange}
    (h : balances c changes = ⟨ds, .ok s⟩) : ∀ d ∈ ds, d.isEffect = true := by
  obtain ⟨docs, -, -, rfl⟩ := balances_eq_ok.mp h
  exact List.forall_mem_map.mpr fun _ _ => rfl

theorem isEffect_effectsOf {ledger : LedgerRow} {fees : List FeeRow} {row : TransactionRow}
    {tx : TransactionDoc} (h : effectsOf ledger fees row tx = ⟨ds, .ok s⟩) :
    ∀ d ∈ ds, d.isEffect = true := by
  rcases effectsOf_cases h with ⟨rfl, -⟩ | h
  · exact List.forall_mem_nil _
  · obtain ⟨ds₁, fee, events, hfee, -, -, rfl⟩ := transactionEffects_eq_ok.mp h
    refine List.forall_mem_append.mpr ⟨?_, List.forall_mem_map.mpr fun _ _ => rfl⟩
    rcases feeBalances_cases hfee with ⟨rfl, -⟩ | ⟨_, hfee⟩
    · exact List.forall_mem_nil _
    · exact isEffect_balances hfee

theorem isEffect_effectsAt {row : TransactionRow} {position : ℕ} {doc : OperationDoc}
    (h : effectsAt row position doc = ⟨ds, .ok s⟩) : ∀ d ∈ ds, d.isEffect = true := by
  rcases effectsAt_cases h with ⟨rfl, -⟩ | h
  · exact List.forall_mem_nil _
  · obtain ⟨ds₁, moved, ds₂, traded, ds₃, signed, hm, ht, hs, -, rfl⟩ :=
      operationEffects_eq_ok.mp h
    refine List.forall_mem_append.mpr ⟨?_, List.forall_mem_append.mpr ⟨?_, ?_⟩⟩
    · rcases movedBalances_cases hm with ⟨rfl, -⟩ | ⟨_, hm⟩
      · exact List.forall_mem_nil _
      · exact isEffect_balances hm
    · rcases trades_eq_ok.mp ht with ⟨-, rfl, -⟩ | ⟨r, docs, -, -, -, rfl⟩
      · exact List.forall_mem_nil _
      · exact List.forall_mem_map.mpr fun _ _ => rfl
    · obtain ⟨rfl, -⟩ := signers_eq_ok.mp hs
      cases SignerDoc.ofOperation? doc <;> simp [isEffect]

/-- The documents of the operations, numbered in order. -/
theorem exists_operationDocs {row : TransactionRow} {tx : TransactionDoc} {position : ℕ}
    {ops : List Operation} (h : operationsFrom row tx position ops = ⟨ds, .ok s⟩) :
    ∃ docs : List OperationDoc, withoutEffects ds = docs.map .operation ∧
      (∀ d ∈ docs, d.txOrder = tx.order) ∧
      docs.map (·.order.toNat) = List.range' (position + 1) ops.length := by
  induction ops generalizing position ds s with
  | nil =>
    obtain ⟨rfl, -⟩ := Emit.pure_eq_ok.mp h
    exact ⟨[], rfl, List.forall_mem_nil _, rfl⟩
  | cons op rest ih =>
    obtain ⟨doc, ds₁, effects, ds₂, more, hdoc, he, hr, -, rfl⟩ := operationsFrom_cons_eq_ok.mp h
    obtain ⟨docs, hdocs, hnamed, hnumbered⟩ := ih hr
    obtain ⟨htx, horder⟩ := OperationDoc.order_ofOperation hdoc
    refine ⟨doc :: docs, ?_, List.forall_mem_cons.mpr ⟨htx, hnamed⟩, ?_⟩
    · rw [withoutEffects_cons_append rfl (isEffect_effectsAt he), hdocs, List.map_cons]
    · rw [List.map_cons, hnumbered, horder, List.length_cons, List.range'_succ]

theorem exists_part {ledger : LedgerRow} {fees : List FeeRow} {position : ℕ}
    {row : TransactionRow} (h : transaction ledger fees position row = ⟨ds, .ok s⟩) :
    ∃ p : TransactionPart, withoutEffects ds = p.documents ∧
      p.transaction.order.toNat = position + 1 ∧ p.transaction.successful = row.isSuccess ∧
      p.operations.length = row.envelope.operations.length := by
  obtain ⟨order, ds₁, effects, ds₂, operations, ho, he, hr, -, rfl⟩ := transaction_eq_ok.mp h
  obtain ⟨docs, hdocs, hnamed, hnumbered⟩ := exists_operationDocs hr
  have hlength : docs.length = row.envelope.operations.length := by
    rw [← List.length_map, hnumbered, List.length_range']
  rw [← hlength] at hnumbered
  have hcounted : (TransactionDoc.ofRow row order ledger.closeTime).operationCount.toNat =
      docs.length := by
    have hlt := lt_of_numbered hnumbered
    show (UInt32.ofNat row.envelope.operations.length).toNat = docs.length
    rw [← hlength, UInt32.toNat_ofNat_of_lt' (Nat.lt_trans hlt (by decide))]
  refine ⟨⟨_, docs, hnamed, hnumbered, hcounted⟩, ?_, orderOfPosition_eq_ok ho, rfl, hlength⟩
  rw [withoutEffects_cons_append rfl (isEffect_effectsOf he), hdocs, TransactionPart.documents]

theorem exists_parts {ledger : LedgerRow} {fees : List FeeRow} {position : ℕ}
    {txs : List TransactionRow} (h : transactionsFrom ledger fees position txs = ⟨ds, .ok s⟩) :
    ∃ ps : List TransactionPart, withoutEffects ds = ps.flatMap TransactionPart.documents ∧
      ps.map (·.transaction.order.toNat) = List.range' (position + 1) txs.length ∧
      Mirrors ps txs := by
  induction txs generalizing position ds s with
  | nil =>
    obtain ⟨rfl, -⟩ := Emit.pure_eq_ok.mp h
    exact ⟨[], rfl, rfl, rfl⟩
  | cons row rest ih =>
    obtain ⟨ds₁, this, ds₂, more, ht, hr, -, rfl⟩ := transactionsFrom_cons_eq_ok.mp h
    obtain ⟨p, hdocs, horder, hok, hlength⟩ := exists_part ht
    obtain ⟨ps, hrest, horders, hsame⟩ := ih hr
    refine ⟨p :: ps, ?_, ?_, ?_⟩
    · rw [withoutEffects_append, hdocs, hrest, List.flatMap_cons]
    · rw [List.map_cons, horders, horder, List.length_cons, List.range'_succ]
    · rw [Mirrors, List.map_cons, hsame, hok, hlength, List.map_cons]

/-- The counters of the documents of a ledger count the documents that follow. -/
theorem counters_ledger {row : LedgerRow} {txs : List TransactionRow} {fees : List FeeRow}
    (h : ledger row txs fees = ⟨ds, .ok s⟩) :
    ∃ doc behind, ds = .ledger doc :: behind ∧
      doc.successful.toNat = (transactionsIn behind).countP (·.successful) ∧
      doc.failed.toNat = (transactionsIn behind).countP (!·.successful) ∧
      doc.operations.toNat = (operationsIn behind).countP (isApplied behind) ∧
      ((transactionsIn behind).map (·.order)).Nodup ∧
      withoutEffects behind = (transactionsIn behind).flatMap (fun t =>
        .transaction t :: (operationsOf behind t).map .operation) ∧
      ∀ t ∈ transactionsIn behind,
        t.operationCount.toNat = (operationsOf behind t).length ∧
        (operationsOf behind t).map (·.order.toNat) =
          List.range' 1 (operationsOf behind t).length := by
  obtain ⟨doc, behind, rest, hdoc, hr, -, rfl⟩ := ledger_eq_ok.mp h
  obtain ⟨ps, hdocs, horders, hsame⟩ := exists_parts hr
  have hnodup : (ps.map (·.transaction.order)).Nodup := by
    refine List.Nodup.of_map UInt8.toNat ?_
    rw [List.map_map]
    exact horders ▸ List.nodup_range'
  have hcomposed : Composed behind ps := ⟨hdocs, hnodup⟩
  -- places are bytes, so that nothing is cut where 32 bits count the rows
  have hops : ∀ tx ∈ txs, tx.envelope.operations.length < UInt32.size := by
    intro tx htx
    obtain ⟨p, -, hlength⟩ := hsame.exists_length_eq htx
    exact hlength ▸ Nat.lt_trans (lt_of_numbered p.numbered) (by decide)
  obtain ⟨hsuccessful, hfailed, hoperations⟩ := LedgerDoc.counters_ofRows hdoc
    (Nat.lt_trans (lt_of_numbered horders) (by decide)) hops
  refine ⟨doc, behind, rfl, ?_, ?_, ?_, ?_, ?_, ?_⟩
  · rw [hsuccessful, hcomposed.transactionsIn_eq, List.countP_map]
    exact (hsame.countP_eq id).symm
  · rw [hfailed, hcomposed.transactionsIn_eq, List.countP_map]
    exact (hsame.countP_eq not).symm
  · rw [hoperations, hcomposed.countP_isApplied, hsame.sum_eq]
  · rw [hcomposed.transactionsIn_eq, List.map_map]
    exact hnodup
  · rw [hcomposed.transactionsIn_eq, List.flatMap_map, hdocs]
    exact List.flatMap_congr fun p hp => by
      rw [TransactionPart.documents, hcomposed.operationsOf_eq hp]
  · intro t ht
    rw [hcomposed.transactionsIn_eq] at ht
    obtain ⟨p, hp, rfl⟩ := List.mem_map.mp ht
    rw [hcomposed.operationsOf_eq hp]
    exact ⟨p.counted, p.numbered⟩

/-- A failed transaction and a successful one, each with an operation. -/
theorem counters_ledger_bumped :
    ∃ (c : LedgerClose) (doc : LedgerDoc) (behind : List Document) (stats : Stats),
      c ∈ sampleCloses ∧
      ledger c.ledger [bumped (.failed []), Memory.Sample.transactionRow 6 2] c.fees =
        ⟨.ledger doc :: behind, .ok stats⟩ ∧
      doc.successful.toNat = 1 ∧ doc.failed.toNat = 1 ∧ doc.operations.toNat = 1 ∧
      (operationsIn behind).length = 2 := by
  have hfirst : (sampleCloses.head?.map fun c =>
      let e := ledger c.ledger [bumped (.failed []), Memory.Sample.transactionRow 6 2] c.fees
      let behind := e.documents.tail
      (e.outcome.toOption.isSome, (transactionsIn behind).countP (·.successful),
        (transactionsIn behind).countP (!·.successful),
        (operationsIn behind).countP (isApplied behind), (operationsIn behind).length)) =
      some (true, 1, 1, 1, 2) := by
    decide +kernel
  obtain ⟨c, hc, hsample⟩ := Option.map_eq_some_iff.mp hfirst
  injection hsample with hok hcounts
  injection hcounts with hsuccessful hcounts
  injection hcounts with hfailed hcounts
  injection hcounts with hoperations hlength
  cases hledger :
    ledger c.ledger [bumped (.failed []), Memory.Sample.transactionRow 6 2] c.fees with
  | mk ds o =>
  rw [hledger] at hok hsuccessful hfailed hoperations hlength
  cases o with
  | error failure => exact nomatch hok
  | ok stats =>
    obtain ⟨doc, behind, rfl, hs, hf, ho, -⟩ := counters_ledger hledger
    exact ⟨c, doc, behind, stats, List.mem_of_head? hc, hledger, hs.trans hsuccessful,
      hf.trans hfailed, ho.trans hoperations, hlength⟩

end Serialize

end LedgerSearch
