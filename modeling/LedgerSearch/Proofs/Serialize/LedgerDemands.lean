import Mathlib
import LedgerSearch.Proofs.Document.BalanceLog
import LedgerSearch.Proofs.Serialize.BatchContents

/-
  The demands of a ledger, in the order in which its documents are made, and that these alone decide
  what becomes of the ledger (`Serialize.meets_ledger`): apart from the counts in its own document
  (`Rows.Counts`), nothing else can go wrong.
-/

namespace LedgerSearch

/-! ## Extractors -/

theorem OfferEvent.meets_ofChangesAfter {c : Context} {last : UInt8} {changes : List EntryChange} :
    Meets (ofChangesAfter c last changes)
      (effectPlaces last.toNat (changes.filterMap EntryChange.offer?).length) := by
  induction changes generalizing last with
  | nil => exact meets_pure []
  | cons change rest ih =>
    rw [ofChangesAfter]
    cases ho : change.offer? with
    | none =>
      rw [List.filterMap_cons_none ho]
      exact ih
    | some p =>
      rw [List.filterMap_cons_some ho, List.length_cons, effectPlaces_succ]
      refine (meets_nextEffectIndex last).bind fun index hi => ?_
      rw [← nextEffectIndex_eq_ok hi]
      exact ih.map

theorem OfferEvent.meets_ofOperations (c : Context) (operations : List (List EntryChange)) :
    Meets (ofOperations c operations)
      (effectPlaces 0 (operations.flatten.filterMap EntryChange.offer?).length) :=
  meets_ofChangesAfter

namespace TradeDoc

theorem meets_ofClaimsAfter {op : OperationDoc} {base : Token} {last : UInt8}
    {claims : List ClaimAtom} :
    Meets (ofClaimsAfter op base last claims) (effectPlaces last.toNat (2 * claims.length)) := by
  induction claims generalizing last with
  | nil => exact meets_pure []
  | cons claim rest ih =>
    rw [ofClaimsAfter, List.length_cons, Nat.mul_succ, effectPlaces_succ, effectPlaces_succ]
    refine (meets_nextEffectIndex last).bind fun first h₁ => ?_
    rw [← nextEffectIndex_eq_ok h₁]
    refine (meets_nextEffectIndex first).bind fun second h₂ => ?_
    rw [← nextEffectIndex_eq_ok h₂]
    exact ih.map

/-- The offers that the trades of an operation are made of. -/
def claims (kind : OperationKind) (result : Option OperationResult) : List ClaimAtom :=
  match result with
  | some r => if r.isSuccess && kind.crossesOffers then (r.inner?.map (·.claimed)).getD [] else []
  | none => []

theorem meets_ofResult (op : OperationDoc) (r : OperationResult) :
    Meets (ofResult op r) (effectPlaces 0 (2 * (claims op.kind (some r)).length)) := by
  unfold ofResult claims
  dsimp only
  split
  · cases r.inner? with
    | none => exact meets_pure []
    | some k => exact meets_ofClaimsAfter
  · exact meets_pure []

end TradeDoc

/-! ## Demands of a ledger -/

namespace TransactionRow

/-- What the balances of a change log demand, where there is a log. -/
def logDemands (log : Option (List EntryChange)) : List Demand :=
  match log with
  | some changes => BalanceStep.demands 0 (BalanceDoc.steps changes)
  | none => []

variable (row : TransactionRow)

/-- The offers the transaction leaves on the book, one for each time. -/
def offers : List (OfferAction × OfferEntry) :=
  row.changes.operations.flatten.filterMap EntryChange.offer?

/-- What an operation of a successful transaction changed. -/
def effectDemands (position : Nat) (op : Operation) : List Demand :=
  logDemands row.changes.operations[position]? ++
    effectPlaces 0 (2 * (TradeDoc.claims op.body.kind (Serialize.resultAt row position)).length)

/-- The demand of an operation's place, then those of its effects if it had any. -/
def operationDemands (position : Nat) (op : Operation) : List Demand :=
  [.place "operation_order" (position + 1)] ++
    if row.isSuccess then row.effectDemands position op else []

/-- The demands of operations that stand from a position on. -/
def operationsDemands (position : Nat) (ops : List Operation) : List Demand :=
  (ops.zipIdx position).flatMap fun p => row.operationDemands p.2 p.1

/-- The demands of a transaction, apart from those of its operations. -/
def ownDemands (fees : List FeeRow) : List Demand :=
  logDemands ((Serialize.feeOf fees row.index).map (·.changes)) ++ effectPlaces 0 row.offers.length

/-- The demands of a transaction: its place, its own effects, then its operations. -/
def demands (fees : List FeeRow) (position : Nat) : List Demand :=
  [.place "transaction_order" (position + 1)] ++
    ((if row.isSuccess then row.ownDemands fees else []) ++
      row.operationsDemands 0 row.envelope.operations)

end TransactionRow

/-- The demands of transactions that stand from a position on. -/
def transactionsDemands (fees : List FeeRow) (position : Nat) (txs : List TransactionRow) :
    List Demand :=
  (txs.zipIdx position).flatMap fun p => p.1.demands fees p.2

/-- What the documents of a ledger demand, in order. -/
def Rows.demands (rows : Rows) (row : LedgerRow) : List Demand :=
  transactionsDemands (rows.feesOf row.seq) 0 (rows.transactionsOf row.seq)

/-! ## The serializer -/

namespace Serialize

open Emit TransactionRow

theorem meets_balances (c : BalanceDoc.Context) (changes : List EntryChange) :
    Meets (balances c changes).outcome (logDemands (some changes)) := by
  unfold balances
  simp only [outcome_bind, outcome_ofOutcome, outcome_writeAll, outcome_pure, pure_bind]
  exact (BalanceDoc.meets_ofChanges c changes).map

theorem meets_feeBalances (ledger : LedgerRow) (fees : List FeeRow) (row : TransactionRow)
    (tx : TransactionDoc) : Meets (feeBalances ledger fees row tx).outcome
      (logDemands ((feeOf fees row.index).map (·.changes))) := by
  unfold feeBalances
  cases feeOf fees row.index with
  | none => exact meets_pure _
  | some fee => exact meets_balances _ _

theorem meets_movedBalances (doc : OperationDoc) (changes : Option (List EntryChange)) :
    Meets (movedBalances doc changes).outcome (logDemands changes) := by
  unfold movedBalances
  cases changes with
  | none => exact meets_pure _
  | some changes => exact meets_balances _ _

theorem meets_trades (doc : OperationDoc) (result : Option OperationResult) :
    Meets (trades doc result).outcome
      (effectPlaces 0 (2 * (TradeDoc.claims doc.kind result).length)) := by
  unfold trades
  cases result with
  | none => exact meets_pure _
  | some r =>
    simp only [outcome_bind, outcome_ofOutcome, outcome_writeAll, outcome_pure, pure_bind]
    exact (TradeDoc.meets_ofResult doc r).map

theorem exists_outcome_signers (doc : OperationDoc) : ∃ s, (signers doc).outcome = .ok s := by
  unfold signers
  cases SignerDoc.ofOperation? doc with
  | none => exact ⟨_, rfl⟩
  | some d => exact ⟨_, rfl⟩

theorem meets_effectsOf (ledger : LedgerRow) (fees : List FeeRow) (row : TransactionRow)
    (tx : TransactionDoc) : Meets (effectsOf ledger fees row tx).outcome
      (if row.isSuccess then row.ownDemands fees else []) := by
  unfold effectsOf
  split
  · rw [transactionEffects_eq]
    simp only [outcome_bind, outcome_ofOutcome, outcome_writeAll, outcome_pure, pure_bind]
    refine (meets_feeBalances ledger fees row tx).bind fun fee _ => ?_
    exact (OfferEvent.meets_ofOperations _ _).map
  · exact meets_pure _

theorem meets_effectsAt (row : TransactionRow) (position : Nat) {doc : OperationDoc}
    {op : Operation} (hbody : doc.body = op.body) : Meets (effectsAt row position doc).outcome
      (if row.isSuccess then row.effectDemands position op else []) := by
  unfold effectsAt
  split
  · rw [operationEffects_eq]
    simp only [outcome_bind, outcome_pure]
    refine (meets_movedBalances doc _).bind fun moved _ => ?_
    have hkind : doc.kind = op.body.kind := congrArg OperationBody.kind hbody
    rw [← hkind]
    obtain ⟨signed, hsigned⟩ := exists_outcome_signers doc
    rw [hsigned]
    exact (meets_trades doc _).map
  · exact meets_pure _

theorem meets_ofOperation {tx : TransactionDoc} {op : Operation} {result : Option OperationResult}
    {position : Nat} (h : position < 256) :
    Meets (OperationDoc.ofOperation tx op result position)
      [.place "operation_order" (position + 1)] :=
  (meets_orderOfPosition "operation_order" h).map

theorem body_of_ofOperation {tx : TransactionDoc} {op : Operation}
    {result : Option OperationResult} {position : Nat} {doc : OperationDoc}
    (h : OperationDoc.ofOperation tx op result position = .ok doc) : doc.body = op.body := by
  obtain ⟨order, -, h⟩ := Outcome.bind_eq_ok.mp h
  obtain rfl := Except.ok.inj h
  rfl

/-- A place that was given out is one of 255. -/
theorem lt_of_meets_place {α : Type} {o : Outcome α} {a : α} {field : String} {position : Nat}
    (h : Meets o [.place field (position + 1)]) (ho : o = .ok a) : position + 1 < 256 :=
  Nat.lt_succ_of_le (h.met ho _ List.mem_cons_self)

theorem meets_operationsFrom {row : TransactionRow} {tx : TransactionDoc} {position : Nat}
    {ops : List Operation} (h : position < 256) :
    Meets (operationsFrom row tx position ops).outcome (row.operationsDemands position ops) := by
  induction ops generalizing position with
  | nil => exact meets_pure _
  | cons op rest ih =>
    have hdemands : row.operationsDemands position (op :: rest) =
        [.place "operation_order" (position + 1)] ++
          ((if row.isSuccess then row.effectDemands position op else []) ++
            row.operationsDemands (position + 1) rest) := by
      unfold operationsDemands
      rw [List.zipIdx_cons, List.flatMap_cons]
      exact List.append_assoc _ _ _
    rw [operationsFrom_cons, hdemands]
    simp only [outcome_bind, outcome_ofOutcome, outcome_write, outcome_pure, pure_bind]
    have hplace : Meets (OperationDoc.ofOperation tx op (resultAt row position) position) _ :=
      meets_ofOperation h
    refine hplace.bind fun doc hdoc => ?_
    refine (meets_effectsAt row position (body_of_ofOperation hdoc)).bind fun effects _ => ?_
    exact (ih (lt_of_meets_place hplace hdoc)).map

theorem meets_transaction {ledger : LedgerRow} {fees : List FeeRow} {position : Nat}
    {row : TransactionRow} (h : position < 256) :
    Meets (transaction ledger fees position row).outcome (row.demands fees position) := by
  rw [transaction_eq]
  simp only [outcome_bind, outcome_ofOutcome, outcome_write, outcome_pure, pure_bind]
  refine (meets_orderOfPosition "transaction_order" h).bind fun order _ => ?_
  refine (meets_effectsOf ledger fees row _).bind fun effects _ => ?_
  exact (meets_operationsFrom (by omega)).map

theorem meets_transactionsFrom {ledger : LedgerRow} {fees : List FeeRow} {position : Nat}
    {txs : List TransactionRow} (h : position < 256) :
    Meets (transactionsFrom ledger fees position txs).outcome
      (transactionsDemands fees position txs) := by
  induction txs generalizing position with
  | nil => exact meets_pure _
  | cons row rest ih =>
    have hdemands : transactionsDemands fees position (row :: rest) =
        row.demands fees position ++ transactionsDemands fees (position + 1) rest := by
      unfold transactionsDemands
      rw [List.zipIdx_cons, List.flatMap_cons]
    rw [transactionsFrom, hdemands]
    simp only [outcome_bind, outcome_pure]
    have hrow : Meets (transaction ledger fees position row).outcome _ := meets_transaction h
    refine hrow.bind fun this hthis => ?_
    have hmem : Demand.place "transaction_order" (position + 1) ∈ row.demands fees position :=
      List.mem_cons_self
    have hnext : position + 1 < 256 := Nat.lt_succ_of_le (hrow.met hthis _ hmem)
    exact (ih hnext).map

/-- With a document of its own, a ledger is serialized if its demands are met, and otherwise fails
    as the first demand does that is not. -/
theorem meets_ledger {row : LedgerRow} {txs : List TransactionRow} {fees : List FeeRow}
    {doc : LedgerDoc} (hdoc : LedgerDoc.ofRows row txs = .ok doc) :
    Meets (ledger row txs fees).outcome (transactionsDemands fees 0 txs) := by
  unfold ledger
  simp only [outcome_bind, outcome_ofOutcome, outcome_write, outcome_pure, pure_bind]
  rw [hdoc]
  exact (meets_transactionsFrom (by omega)).map

end Serialize

/-! ## The counts of a ledger -/

theorem LedgerDoc.sumCounts_eq {total : Nat} {ns : List Nat} (h : total < UInt32.size) :
    sumCounts total ns = if total + ns.sum < UInt32.size then .ok (total + ns.sum)
      else .error (.overflow .add) := by
  induction ns generalizing total with
  | nil => exact (if_pos h).symm
  | cons n rest ih =>
    rw [sumCounts, checkedAdd, List.sum_cons, ← Nat.add_assoc]
    split
    · next hn => exact ih hn
    · next hn => exact (if_neg fun hlt => hn (Nat.lt_of_le_of_lt (Nat.le_add_right _ _) hlt)).symm

namespace Rows

variable {rows : Rows} {row : LedgerRow}

/-- The transactions of a ledger that had their effects. -/
def appliedOf (rows : Rows) (seq : UInt32) : List TransactionRow :=
  (rows.transactionsOf seq).filter (·.isSuccess)

/-- The numbers of operations, as far as 32 bits count them, of the successful transactions. -/
def operationCounts (rows : Rows) (row : LedgerRow) : List Nat :=
  (rows.appliedOf row.seq).map fun tx => tx.envelope.operations.length % UInt32.size

/-- There are 32-bit counts for the document of the ledger. -/
structure Counts (rows : Rows) (row : LedgerRow) : Prop where
  operations : (rows.operationCounts row).sum < UInt32.size
  /-- The failed transactions are what the successful ones leave of all, each counted in 32 bits. -/
  failed : (rows.appliedOf row.seq).length % UInt32.size ≤
    (rows.transactionsOf row.seq).length % UInt32.size

/-- Fewer than `2 ^ 32` transactions with fewer than `2 ^ 32` operations can be counted. -/
theorem Counts.of_lt (htxs : (rows.transactionsOf row.seq).length < UInt32.size)
    (hops : ((rows.appliedOf row.seq).map (·.envelope.operations.length)).sum < UInt32.size) :
    rows.Counts row where
  operations := by
    refine Nat.lt_of_le_of_lt (List.sum_le_sum fun tx _ => ?_) hops
    exact Nat.mod_le _ _
  failed := by
    rw [Nat.mod_eq_of_lt htxs]
    exact Nat.le_trans (Nat.mod_le _ _) (List.length_filter_le _ _)

theorem ofRows_eq (rows : Rows) (row : LedgerRow) :
    LedgerDoc.ofRows row (rows.transactionsOf row.seq) = (do
      let operations ← LedgerDoc.sumCounts 0 (rows.operationCounts row)
      let failed ← checkedSub ((rows.transactionsOf row.seq).length % UInt32.size)
        ((rows.appliedOf row.seq).length % UInt32.size)
      pure ⟨row, .ofNat (rows.appliedOf row.seq).length, .ofNat failed, .ofNat operations⟩) :=
  rfl

theorem Counts.exists_ofRows (h : rows.Counts row) :
    ∃ doc, LedgerDoc.ofRows row (rows.transactionsOf row.seq) = .ok doc := by
  rw [ofRows_eq, LedgerDoc.sumCounts_eq (by decide), Nat.zero_add, if_pos h.operations, checkedSub,
    if_pos h.failed]
  exact ⟨_, rfl⟩

theorem exists_ofRows_overflow (h : ¬ rows.Counts row) :
    ∃ o, LedgerDoc.ofRows row (rows.transactionsOf row.seq) = .error (.overflow o) := by
  rw [ofRows_eq, LedgerDoc.sumCounts_eq (by decide), Nat.zero_add]
  split
  · next hops =>
    rw [checkedSub, if_neg fun hfailed => h ⟨hops, hfailed⟩]
    exact ⟨.subtract, rfl⟩
  · exact ⟨.add, rfl⟩

/-! ## What becomes of a ledger -/

/-- Going through the ledger, two balances are subtracted that are further apart than 64 bits can
    say, before any part is found to have no place in a token. -/
def Breaks (rows : Rows) (row : LedgerRow) : Prop :=
  ∃ before d after, rows.demands row = before ++ .difference d :: after ∧
    (∀ p ∈ before, p.Met) ∧ ¬ (Demand.difference d).Met

theorem breaks_iff : rows.Breaks row ↔ ∃ d, firstUnmet (rows.demands row) = some (.difference d) := by
  simp only [firstUnmet_eq_some]
  constructor
  · intro h
    obtain ⟨before, d, after, hds, hmet, hd⟩ := h
    exact ⟨d, hd, before, after, hds, hmet⟩
  · intro h
    obtain ⟨d, hd, before, after, hds, hmet⟩ := h
    exact ⟨before, d, after, hds, hmet, hd⟩

theorem Counts.meets_emit (h : rows.Counts row) :
    Meets (rows.emit row).outcome (rows.demands row) := by
  obtain ⟨doc, hdoc⟩ := h.exists_ofRows
  exact Serialize.meets_ledger hdoc

theorem exists_emit_overflow (h : ¬ rows.Counts row) :
    ∃ o, (rows.emit row).outcome = .error (.overflow o) := by
  obtain ⟨o, ho⟩ := exists_ofRows_overflow h
  refine ⟨o, ?_⟩
  unfold emit Serialize.ledger
  rw [Emit.outcome_bind, Emit.outcome_ofOutcome, ho]
  rfl

theorem Counts.emit_breaks (h : rows.Counts row) (hb : rows.Breaks row) :
    (rows.emit row).outcome = .error (.overflow .subtract) := by
  obtain ⟨d, hd⟩ := breaks_iff.mp hb
  have hmeets := h.meets_emit
  unfold Meets at hmeets
  rwa [hd] at hmeets

/-- A ledger that has not all its documents, though nothing overflows, has a part without place. -/
theorem Counts.serializes_or_overflows (h : rows.Counts row) (hb : ¬ rows.Breaks row) :
    ((∃ ds, rows.Serializes row ds) ∧ ¬ Unplaced (rows.demands row)) ∨
      (rows.Overflows row ∧ Unplaced (rows.demands row)) := by
  have hmeets := h.meets_emit
  unfold Meets at hmeets
  cases hfirst : firstUnmet (rows.demands row) with
  | none =>
    rw [hfirst] at hmeets
    obtain ⟨stats, hstats⟩ := hmeets
    refine .inl ⟨⟨(rows.emit row).documents, stats, ?_⟩, ?_⟩
    · rw [← hstats]
    · intro hu
      obtain ⟨field, n, hmem, hn⟩ := hu
      have hmet : n ≤ 255 := firstUnmet_eq_none.mp hfirst _ hmem
      exact Nat.not_lt_of_le hmet hn
  | some d =>
    rw [hfirst] at hmeets
    cases d with
    | difference d => exact absurd (breaks_iff.mpr ⟨d, hfirst⟩) hb
    | place field n =>
      refine .inr ⟨⟨(rows.emit row).documents, field, n, ?_⟩, unplaced_of_firstUnmet hfirst⟩
      show _ = Emit.mk _ (.error (Demand.place field n).failure)
      rw [← hmeets]

end Rows

/-! ## Differences of a ledger -/

theorem difference_not_mem_effectPlaces {d : Int} {last n : Nat} :
    .difference d ∉ effectPlaces last n := by
  intro h
  obtain ⟨k, -, -, heq⟩ := mem_effectPlaces.mp h
  exact nomatch heq

namespace TransactionRow

variable {row : TransactionRow} {fees : List FeeRow} {d : Int}

/-- The change logs that balances are read from: of the fee charge that counts, and of each
    operation. -/
def balanceLogs (fees : List FeeRow) (row : TransactionRow) : List (List EntryChange) :=
  ((Serialize.feeOf fees row.index).map (·.changes)).toList ++
    row.changes.operations.take row.envelope.operations.length

theorem difference_mem_logDemands {log : Option (List EntryChange)} :
    .difference d ∈ logDemands log ↔ ∃ changes ∈ log, .moved d ∈ BalanceDoc.steps changes := by
  cases log with
  | none => simp [logDemands]
  | some changes => simp [logDemands, BalanceStep.difference_mem_demands]

theorem difference_mem_ownDemands : .difference d ∈ row.ownDemands fees ↔
    ∃ log ∈ (Serialize.feeOf fees row.index).map (·.changes), .moved d ∈ BalanceDoc.steps log := by
  rw [ownDemands, List.mem_append, or_iff_left difference_not_mem_effectPlaces,
    difference_mem_logDemands]

theorem difference_mem_operationDemands {i : Nat} {op : Operation} :
    .difference d ∈ row.operationDemands i op ↔ row.isSuccess = true ∧
      ∃ log ∈ row.changes.operations[i]?, .moved d ∈ BalanceDoc.steps log := by
  have hplace : .difference d ∉ [Demand.place "operation_order" (i + 1)] := by simp
  rw [operationDemands, List.mem_append, or_iff_right hplace]
  cases row.isSuccess with
  | false => simp
  | true =>
    rw [if_pos rfl, effectDemands, List.mem_append, or_iff_left difference_not_mem_effectPlaces,
      difference_mem_logDemands]
    simp

theorem difference_mem_operationsDemands :
    .difference d ∈ row.operationsDemands 0 row.envelope.operations ↔ row.isSuccess = true ∧
      ∃ log ∈ row.changes.operations.take row.envelope.operations.length,
        .moved d ∈ BalanceDoc.steps log := by
  refine (mem_flatMap_zipIdx (f := row.operationDemands)).trans ?_
  simp only [difference_mem_operationDemands]
  constructor
  · intro h
    obtain ⟨i, op, hop, hsuccess, log, hlog, hd⟩ := h
    have hi := (List.getElem?_eq_some_iff.mp hop).1
    rw [← List.getElem?_take_of_lt hi] at hlog
    exact ⟨hsuccess, log, List.mem_of_getElem? hlog, hd⟩
  · intro h
    obtain ⟨hsuccess, log, hlog, hd⟩ := h
    obtain ⟨i, hi, rfl⟩ := List.mem_take_iff_getElem.mp hlog
    have hop : i < row.envelope.operations.length := Nat.lt_of_lt_of_le hi (Nat.min_le_left _ _)
    exact ⟨i, row.envelope.operations[i], List.getElem?_eq_getElem hop, hsuccess, _,
      List.getElem?_eq_getElem _, hd⟩

theorem difference_mem_demands {position : Nat} :
    .difference d ∈ row.demands fees position ↔ row.isSuccess = true ∧
      ∃ log ∈ row.balanceLogs fees, .moved d ∈ BalanceDoc.steps log := by
  have hplace : .difference d ∉ [Demand.place "transaction_order" (position + 1)] := by simp
  rw [demands, List.mem_append, or_iff_right hplace, List.mem_append,
    difference_mem_operationsDemands]
  unfold balanceLogs
  simp only [List.mem_append, Option.mem_toList, or_and_right, exists_or]
  cases row.isSuccess with
  | false => simp
  | true => simp only [if_true, difference_mem_ownDemands, true_and, Option.mem_def]

end TransactionRow

namespace Rows

variable {rows : Rows} {row : LedgerRow}

/-- Every difference of balances of the ledger fits 64 bits. -/
def InRange (rows : Rows) (row : LedgerRow) : Prop :=
  ∀ tx ∈ rows.transactionsOf row.seq, tx.isSuccess = true →
    ∀ log ∈ tx.balanceLogs (rows.feesOf row.seq), BalanceDoc.InRange log

instance : Decidable (rows.InRange row) := inferInstanceAs (Decidable (∀ _ ∈ _, _ → _))

theorem difference_mem_demands {d : Int} :
    .difference d ∈ rows.demands row ↔ ∃ tx ∈ rows.transactionsOf row.seq, tx.isSuccess = true ∧
      ∃ log ∈ tx.balanceLogs (rows.feesOf row.seq), .moved d ∈ BalanceDoc.steps log := by
  refine (mem_flatMap_zipIdx
    (f := fun i (tx : TransactionRow) => tx.demands (rows.feesOf row.seq) i)).trans ?_
  simp only [TransactionRow.difference_mem_demands]
  constructor
  · intro h
    obtain ⟨i, tx, htx, hd⟩ := h
    exact ⟨tx, List.mem_of_getElem? htx, hd⟩
  · intro h
    obtain ⟨tx, htx, hd⟩ := h
    obtain ⟨i, hi⟩ := List.mem_iff_getElem?.mp htx
    exact ⟨i, tx, hi, hd⟩

theorem inRange_iff :
    rows.InRange row ↔ ∀ d, .difference d ∈ rows.demands row → (Demand.difference d).Met := by
  constructor
  · intro h d hd
    obtain ⟨tx, htx, hsuccess, log, hlog, hd⟩ := difference_mem_demands.mp hd
    exact h tx htx hsuccess log hlog _ hd
  · intro h tx htx hsuccess log hlog s hs
    cases s with
    | opened => exact trivial
    | moved d => exact h d (difference_mem_demands.mpr ⟨tx, htx, hsuccess, log, hlog, hs⟩)

theorem InRange.not_breaks (h : rows.InRange row) : ¬ rows.Breaks row := by
  intro hb
  obtain ⟨before, d, after, hds, -, hunmet⟩ := hb
  refine hunmet (inRange_iff.mp h d ?_)
  rw [hds]
  exact List.mem_append_right _ List.mem_cons_self

/-- Where there is a place for every part, a difference that does not fit is reached. -/
theorem breaks_iff_not_inRange (hplaced : ¬ Unplaced (rows.demands row)) :
    rows.Breaks row ↔ ¬ rows.InRange row := by
  refine ⟨fun hb hr => hr.not_breaks hb, fun hr => ?_⟩
  cases hfirst : firstUnmet (rows.demands row) with
  | none => exact absurd (inRange_iff.mpr fun d => firstUnmet_eq_none.mp hfirst _) hr
  | some d =>
    cases d with
    | difference d => exact breaks_iff.mpr ⟨d, hfirst⟩
    | place field n => exact absurd (unplaced_of_firstUnmet hfirst) hplaced

end Rows

end LedgerSearch
