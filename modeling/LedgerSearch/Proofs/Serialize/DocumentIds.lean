import Mathlib
import LedgerSearch.Memory.Sample
import LedgerSearch.Proofs.Bulk.ActionLine
import LedgerSearch.Proofs.Bulk.JsonText
import LedgerSearch.Proofs.Serialize.DocumentOrder

/-
  The ids in a bulk body. `Concerns` says to which transaction and operation of a ledger a document
  belongs, and `Concerns.place` that its token holds their one-based positions. Read from the action
  lines the ids strictly increase over the whole body, so that no two documents share one, and each
  holds the sequence of its ledger and those positions (`ids_increasing`).
-/

namespace LedgerSearch

open Token

/-! ## Where a document belongs -/

namespace Serialize

/-- The document is that of the operation at zero-based position `j` of a transaction, or one of its
    effects. -/
inductive OfOperation (row : TransactionRow) (tx : TransactionDoc) (j : Nat) : Document → Prop
  | document {op : Operation} {doc : OperationDoc} :
      row.envelope.operations[j]? = some op →
      OperationDoc.ofOperation tx op (resultAt row j) j = .ok doc →
      OfOperation row tx j (.operation doc)
  | effect {op : Operation} {doc : OperationDoc} {ds : List Document} {s : Stats} {d : Document} :
      row.envelope.operations[j]? = some op →
      OperationDoc.ofOperation tx op (resultAt row j) j = .ok doc →
      effectsAt row j doc = ⟨ds, .ok s⟩ → d ∈ ds →
      OfOperation row tx j d

/-- The document belongs to the transaction and operation of these one-based positions in a ledger;
    zero where it belongs to none. -/
inductive Concerns (row : LedgerRow) (txs : List TransactionRow) (fees : List FeeRow) :
    Nat → Nat → Document → Prop
  | ledger {doc : LedgerDoc} :
      LedgerDoc.ofRows row txs = .ok doc →
      Concerns row txs fees 0 0 (.ledger doc)
  | transaction {k : Nat} {tx : TransactionRow} {order : UInt8} :
      txs[k]? = some tx → orderOfPosition "transaction_order" k = .ok order →
      Concerns row txs fees (k + 1) 0 (.transaction (.ofRow tx order row.closeTime))
  | effect {k : Nat} {tx : TransactionRow} {order : UInt8} {ds : List Document} {s : Stats}
      {d : Document} :
      txs[k]? = some tx → orderOfPosition "transaction_order" k = .ok order →
      effectsOf row fees tx (.ofRow tx order row.closeTime) = ⟨ds, .ok s⟩ → d ∈ ds →
      Concerns row txs fees (k + 1) 0 d
  | operation {k j : Nat} {tx : TransactionRow} {order : UInt8} {d : Document} :
      txs[k]? = some tx → orderOfPosition "transaction_order" k = .ok order →
      OfOperation tx (.ofRow tx order row.closeTime) j d →
      Concerns row txs fees (k + 1) (j + 1) d

theorem effectsOf_place {ledger : LedgerRow} {fees : List FeeRow} {row : TransactionRow}
    {tx : TransactionDoc} {ds : List Document} {s : Stats}
    (h : effectsOf ledger fees row tx = ⟨ds, .ok s⟩) {d : Document} (hd : d ∈ ds) :
    d.token.ledger = tx.seq ∧ d.token.transaction = tx.order ∧ d.token.operation = 0 := by
  have hr := (ascending_effectsOf h).within _ (List.mem_map_of_mem hd)
  exact fields_of_number ⟨rfl, rfl⟩ (by omega) hr.2

theorem OfOperation.place {row : TransactionRow} {tx : TransactionDoc} {j : Nat} {d : Document}
    (h : OfOperation row tx j d) :
    d.token.ledger = tx.seq ∧ d.token.transaction = tx.order ∧ d.token.operation.toNat = j + 1 := by
  cases h with
  | document _ hd =>
    obtain ⟨order, ho, ht⟩ := OperationDoc.ofOperation_eq_ok hd
    rw [Document.token, ht]
    exact ⟨rfl, rfl, ho⟩
  | effect _ hd he hm =>
    obtain ⟨order, ho, ht⟩ := OperationDoc.ofOperation_eq_ok hd
    have hr := (ascending_effectsAt he).within _ (List.mem_map_of_mem hm)
    obtain ⟨hl, htx, hop⟩ := fields_of_number ⟨rfl, rfl⟩ (by omega) hr.2
    rw [hl, htx, hop, ht]
    exact ⟨rfl, rfl, ho⟩

/-- The token of a document holds the positions it belongs to. -/
theorem Concerns.positions {row : LedgerRow} {txs : List TransactionRow} {fees : List FeeRow}
    {k j : Nat} {d : Document} (h : Concerns row txs fees k j d) :
    d.token.transaction.toNat = k ∧ d.token.operation.toNat = j := by
  cases h with
  | ledger hd =>
    rw [Document.token, LedgerDoc.ofRows_eq_ok hd]
    exact ⟨rfl, rfl⟩
  | transaction _ ho => exact ⟨orderOfPosition_eq_ok ho, rfl⟩
  | effect _ ho he hm =>
    obtain ⟨-, ht, hop⟩ := effectsOf_place he hm
    rw [ht, hop]
    exact ⟨orderOfPosition_eq_ok ho, rfl⟩
  | operation _ ho hop =>
    obtain ⟨-, ht, hj⟩ := hop.place
    rw [ht, hj]
    exact ⟨orderOfPosition_eq_ok ho, rfl⟩

/-- Where its transactions are those of the ledger it also holds the ledger's sequence. -/
theorem Concerns.place {row : LedgerRow} {txs : List TransactionRow} {fees : List FeeRow}
    {k j : Nat} {d : Document} (hseq : ∀ tx ∈ txs, tx.seq = row.seq)
    (h : Concerns row txs fees k j d) :
    d.token.ledger = row.seq ∧ d.token.transaction.toNat = k ∧ d.token.operation.toNat = j := by
  refine ⟨?_, h.positions⟩
  cases h with
  | ledger hd => rw [Document.token, LedgerDoc.ofRows_eq_ok hd]; rfl
  | transaction htx _ => exact hseq _ (List.mem_of_getElem? htx)
  | effect htx _ he hm =>
    rw [(effectsOf_place he hm).1]
    exact hseq _ (List.mem_of_getElem? htx)
  | operation htx _ hop =>
    rw [hop.place.1]
    exact hseq _ (List.mem_of_getElem? htx)

/-! ## Every document belongs somewhere -/

theorem exists_ofOperation {row : TransactionRow} {tx : TransactionDoc}
    (done : List Operation) {rest : List Operation} (hops : row.envelope.operations = done ++ rest)
    {ds : List Document} {s : Stats} (h : operationsFrom row tx done.length rest = ⟨ds, .ok s⟩)
    {d : Document} (hd : d ∈ ds) : ∃ j, OfOperation row tx j d := by
  induction rest generalizing done ds s with
  | nil =>
    obtain ⟨rfl, -⟩ := Emit.pure_eq_ok.mp h
    exact nomatch hd
  | cons op rest ih =>
    obtain ⟨doc, ds₁, effects, ds₂, more, ho, he, hr, -, rfl⟩ := operationsFrom_cons_eq_ok.mp h
    have hop : row.envelope.operations[done.length]? = some op := by rw [hops]; simp
    rcases List.mem_cons.mp hd with rfl | hd
    · exact ⟨done.length, .document hop ho⟩
    rcases List.mem_append.mp hd with hd | hd
    · exact ⟨done.length, .effect hop ho he hd⟩
    · have hlen : (done ++ [op]).length = done.length + 1 := List.length_append
      exact ih (done ++ [op]) (by rw [hops, List.append_cons]) (by rw [hlen]; exact hr) hd

theorem exists_concerns_of_transactions {row : LedgerRow} {txs : List TransactionRow}
    {fees : List FeeRow} (done : List TransactionRow) {rest : List TransactionRow}
    (htxs : txs = done ++ rest)
    {ds : List Document} {s : Stats} (h : transactionsFrom row fees done.length rest = ⟨ds, .ok s⟩)
    {d : Document} (hd : d ∈ ds) : ∃ k j, Concerns row txs fees k j d := by
  induction rest generalizing done ds s with
  | nil =>
    obtain ⟨rfl, -⟩ := Emit.pure_eq_ok.mp h
    exact nomatch hd
  | cons tx rest ih =>
    obtain ⟨ds₁, this, ds₂, more, ht, hr, -, rfl⟩ := transactionsFrom_cons_eq_ok.mp h
    have htx : txs[done.length]? = some tx := by rw [htxs]; simp
    rcases List.mem_append.mp hd with hd | hd
    · obtain ⟨order, ds₃, effects, ds₄, operations, ho, he, hops, -, rfl⟩ := transaction_eq_ok.mp ht
      rcases List.mem_cons.mp hd with rfl | hd
      · exact ⟨_, _, .transaction htx ho⟩
      rcases List.mem_append.mp hd with hd | hd
      · exact ⟨_, _, .effect htx ho he hd⟩
      · obtain ⟨j, hj⟩ := exists_ofOperation [] rfl hops hd
        exact ⟨_, _, .operation htx ho hj⟩
    · have hlen : (done ++ [tx]).length = done.length + 1 := List.length_append
      exact ih (done ++ [tx]) (by rw [htxs, List.append_cons]) (by rw [hlen]; exact hr) hd

theorem exists_concerns {row : LedgerRow} {txs : List TransactionRow} {fees : List FeeRow}
    {ds : List Document} {s : Stats} (h : ledger row txs fees = ⟨ds, .ok s⟩) {d : Document}
    (hd : d ∈ ds) : ∃ k j, Concerns row txs fees k j d := by
  obtain ⟨doc, ds₁, rest, hl, hr, -, rfl⟩ := ledger_eq_ok.mp h
  rcases List.mem_cons.mp hd with rfl | hd
  · exact ⟨0, 0, .ledger hl⟩
  · exact exists_concerns_of_transactions [] rfl hr hd

/-! ## The documents of one transaction -/

theorem transaction_of_mem {row : LedgerRow} {fees : List FeeRow} {position : Nat}
    {tx : TransactionRow} {ds : List Document} {s : Stats}
    (h : transaction row fees position tx = ⟨ds, .ok s⟩) {d : Document} (hd : d ∈ ds) :
    d.token.transaction.toNat = position + 1 := by
  obtain ⟨order, ds₁, effects, ds₂, operations, ho, he, hr, -, rfl⟩ := transaction_eq_ok.mp h
  suffices horder : d.token.transaction = order by rw [horder, orderOfPosition_eq_ok ho]
  rcases List.mem_cons.mp hd with rfl | hd
  · rfl
  rcases List.mem_append.mp hd with hd | hd
  · exact (effectsOf_place he hd).2.1
  · obtain ⟨j, hj⟩ := exists_ofOperation [] rfl hr hd
    exact hj.place.2.1

theorem transaction_of_mem_transactionsFrom {row : LedgerRow} {fees : List FeeRow} {position : Nat}
    {txs : List TransactionRow} {ds : List Document} {s : Stats}
    (h : transactionsFrom row fees position txs = ⟨ds, .ok s⟩) {d : Document} (hd : d ∈ ds) :
    position < d.token.transaction.toNat ∧
      d.token.transaction.toNat ≤ position + txs.length := by
  induction txs generalizing position ds s with
  | nil =>
    obtain ⟨rfl, -⟩ := Emit.pure_eq_ok.mp h
    cases hd
  | cons tx rest ih =>
    obtain ⟨ds₁, this, ds₂, more, ht, hr, -, rfl⟩ := transactionsFrom_cons_eq_ok.mp h
    rw [List.length_cons]
    rcases List.mem_append.mp hd with hd | hd
    · have := transaction_of_mem ht hd
      omega
    · have := ih hr hd
      omega

end Serialize

/-- The document is one of a ledger with the rows of its sequence. -/
def Rows.Concerns (rows : Rows) (row : LedgerRow) : Nat → Nat → Document → Prop :=
  Serialize.Concerns row (rows.transactionsOf row.seq) (rows.feesOf row.seq)

theorem Serialized.exists_concerns {rows : Rows} {ledgers : List LedgerRow} {s : Serialized}
    (h : ofLedgers rows ledgers = (s, .ok ())) {d : Document} (hd : d ∈ s.documents) :
    ∃ row ∈ ledgers, ∃ k j, rows.Concerns row k j d := by
  induction ledgers generalizing s with
  | nil =>
    obtain ⟨rfl, -⟩ := Prod.mk.injEq .. ▸ h
    exact nomatch hd
  | cons row rest ih =>
    obtain ⟨first, more, hf, hr, rfl⟩ := ofLedgers_cons_eq_ok.mp h
    rcases List.mem_append.mp hd with hd | hd
    · rcases ofLedger_eq_ok.mp hf with ⟨ds, stats, hl, rfl⟩ | ⟨ds, field, value, -, rfl⟩
      · obtain ⟨k, j, hc⟩ := Serialize.exists_concerns hl hd
        exact ⟨row, by simp, k, j, hc⟩
      · exact nomatch hd
    · obtain ⟨r, hr, hc⟩ := ih hr hd
      exact ⟨r, List.mem_cons_of_mem _ hr, hc⟩

/-! ## Ids of a body -/

/-- The ids in the body of ledgers of increasing sequences strictly increase, so that no two
    documents share one, and each unpacks to the place of its document. -/
theorem BulkBody.ids_increasing {rows : Rows} {ledgers : List LedgerRow} {s : Serialized}
    (deployment : String) (hl : (ledgers.map (·.seq)).Pairwise (· < ·))
    (h : Serialized.ofLedgers rows ledgers = (s, .ok ())) :
    ∃ ids, (ofDocuments deployment s.documents).ids? = some ids ∧
      ids.Pairwise (· < ·) ∧ ids.Nodup ∧
      List.Forall₂ (fun d id =>
        (∃ row ∈ ledgers, ∃ k j, rows.Concerns row k j d) ∧
        ∀ row ∈ ledgers, ∀ k j, rows.Concerns row k j d →
          (unpack id).ledger = row.seq ∧ (unpack id).transaction.toNat = k ∧
            (unpack id).operation.toNat = j) s.documents ids := by
  have hpair : (s.documents.map (·.token.pack)).Pairwise (· < ·) := by
    have := (Serialized.ascending_ofLedgers (fun _ _ => Nat.zero_le _) hl h).increasing
    rw [tokens, List.pairwise_map] at this
    rw [List.pairwise_map]
    exact this.imp fun hlt => (pack_lt_pack_iff _ _).mpr hlt
  refine ⟨_, ids?_ofDocuments deployment s.documents, hpair, hpair.imp fun hlt => ?_, ?_⟩
  · exact UInt64.ne_of_lt hlt
  · refine List.forall₂_map_right_iff.mpr (List.forall₂_same.mpr fun d hd => ⟨?_, ?_⟩)
    · exact Serialized.exists_concerns h hd
    · intro row _ k j hc
      rw [unpack_pack]
      exact Serialize.Concerns.place (fun _ => Rows.seq_of_mem_transactionsOf) hc

/-- Two of the sample ledgers, three payments between them. -/
def sampleCloses : List LedgerClose :=
  [Memory.Sample.ledger 6 2, Memory.Sample.ledger 7 1].filterMap Except.toOption

/-- The rows of the sample history, all of its ledgers in one table. -/
def sampleRows : Rows := ⟨sampleCloses.flatMap (·.transactions), sampleCloses.flatMap (·.fees)⟩

theorem seqs_sampleCloses : (sampleCloses.map (·.ledger)).map (·.seq) = [6, 7] := by
  decide +kernel

/-- All of their documents can be made. -/
theorem Serialized.exists_ofLedgers_sample : ∃ out,
    ofLedgers sampleRows (sampleCloses.map (·.ledger)) = (out, .ok ()) ∧ out.documents ≠ [] ∧
      out.unindexable = [] := by
  refine ⟨_, Prod.ext rfl (by decide +kernel), ?_, by decide +kernel⟩
  have hlength : (ofLedgers sampleRows (sampleCloses.map (·.ledger))).1.documents.length ≠ 0 := by
    decide +kernel
  exact fun hnil => hlength (congrArg List.length hnil)

theorem BulkBody.ids_increasing_sample :
    ∃ ids, (ofDocuments "live" (Serialized.ofLedgers sampleRows
        (sampleCloses.map (·.ledger))).1.documents).ids? = some ids ∧
      ids.Pairwise (· < ·) ∧ ids.length = 17 := by
  have hok : (Serialized.ofLedgers sampleRows (sampleCloses.map (·.ledger))).2 = .ok () := by
    decide +kernel
  obtain ⟨ids, hids, hlt, -, hplaces⟩ :=
    ids_increasing "live" (by decide +kernel) (Prod.ext rfl hok)
  refine ⟨ids, hids, hlt, ?_⟩
  rw [← hplaces.length_eq]
  decide +kernel

end LedgerSearch
