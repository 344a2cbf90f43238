import Mathlib
import LedgerSearch.Proofs.Serialize.DocumentCounts
import LedgerSearch.Proofs.Serialize.DocumentIds

/-
  What a run of ledgers is made into: of each ledger all of its documents, or none and its sequence
  among those left out.
-/

namespace LedgerSearch

/-! ## One ledger document for a ledger -/

namespace Serialize

theorem ledgers_transactionsFrom {ledger : LedgerRow} {fees : List FeeRow} {position : Nat}
    {txs : List TransactionRow} {ds : List Document} {s : Stats}
    (h : transactionsFrom ledger fees position txs = ⟨ds, .ok s⟩) : s.ledgers = 0 := by
  have hnone : ds.countP (·.index = .ledger) = 0 := by
    refine List.countP_eq_zero.mpr fun d hd hindex => ?_
    have hplace := (transaction_of_mem_transactionsFrom h hd).1
    cases d with
    | ledger doc => exact absurd hplace (Nat.not_lt_zero _)
    | _ => cases of_decide_eq_true hindex
  rw [stats_transactionsFrom h]
  exact (Stats.ofIndex_ofDocuments ds .ledger).trans hnone

theorem ledgers_ledger {row : LedgerRow} {txs : List TransactionRow} {fees : List FeeRow}
    {ds : List Document} {s : Stats} (h : ledger row txs fees = ⟨ds, .ok s⟩) : s.ledgers = 1 := by
  obtain ⟨doc, ds₁, rest, -, hr, rfl, -⟩ := ledger_eq_ok.mp h
  show 1 + rest.ledgers = 1
  rw [ledgers_transactionsFrom hr]

end Serialize

/-! ## Ledgers of a run -/

namespace Rows

/-- The ledger, with the rows of its sequence, as documents. -/
def emit (rows : Rows) (row : LedgerRow) : Emit Stats :=
  Serialize.ledger row (rows.transactionsOf row.seq) (rows.feesOf row.seq)

/-- All of the ledger's parts have a place in a paging token, and these are its documents. -/
def Serializes (rows : Rows) (row : LedgerRow) (ds : List Document) : Prop :=
  ∃ stats, rows.emit row = ⟨ds, .ok stats⟩

/-- Some part of the ledger has no place in a paging token. -/
def Overflows (rows : Rows) (row : LedgerRow) : Prop :=
  ∃ ds field value, rows.emit row = ⟨ds, .error (.error (.orderingOverflow field value))⟩

theorem Serializes.not_overflows {rows : Rows} {row : LedgerRow} {ds : List Document}
    (h : rows.Serializes row ds) : ¬ rows.Overflows row := by
  rintro ⟨ds', field, value, ho⟩
  obtain ⟨stats, hs⟩ := h
  rw [hs] at ho
  injection ho with _ ho
  exact nomatch ho

theorem Serializes.unique {rows : Rows} {row : LedgerRow} {ds ds' : List Document}
    (h : rows.Serializes row ds) (h' : rows.Serializes row ds') : ds = ds' := by
  obtain ⟨stats, hs⟩ := h
  obtain ⟨stats', hs'⟩ := h'
  rw [hs] at hs'
  injection hs'

/-- The first document of a ledger is the one of the ledger itself. -/
theorem Serializes.head {rows : Rows} {row : LedgerRow} {ds : List Document}
    (h : rows.Serializes row ds) :
    ∃ doc rest, ds = .ledger doc :: rest ∧ doc.token = .ofLedger row.seq := by
  obtain ⟨stats, hs⟩ := h
  obtain ⟨doc, rest, more, hd, -, -, rfl⟩ := Serialize.ledger_eq_ok.mp hs
  exact ⟨doc, rest, rfl, LedgerDoc.ofRows_eq_ok hd⟩

/-- The tokens of a ledger's documents name the ledger. -/
theorem Serializes.ledger_eq {rows : Rows} {row : LedgerRow} {ds : List Document}
    (h : rows.Serializes row ds) {d : Document} (hd : d ∈ ds) : d.token.ledger = row.seq := by
  obtain ⟨stats, hs⟩ := h
  obtain ⟨k, j, hc⟩ := Serialize.exists_concerns hs hd
  exact (hc.place fun _ => seq_of_mem_transactionsOf).1

/-- No two documents of a ledger have the same token. -/
theorem Serializes.nodup_tokens {rows : Rows} {row : LedgerRow} {ds : List Document}
    (h : rows.Serializes row ds) : (ds.map (·.token)).Nodup := by
  obtain ⟨stats, hs⟩ := h
  have hasc := (Serialize.ascending_ledger (fun _ => seq_of_mem_transactionsOf) hs).increasing
  refine List.Pairwise.imp ?_ hasc
  intro s t hlt heq
  rw [heq] at hlt
  exact Nat.lt_irrefl _ hlt

theorem Serializes.eq_of_token_eq {rows : Rows} {row : LedgerRow} {ds : List Document}
    (h : rows.Serializes row ds) {d d' : Document} (hd : d ∈ ds) (hd' : d' ∈ ds)
    (ht : d.token = d'.token) : d = d' := List.inj_on_of_nodup_map h.nodup_tokens hd hd' ht

end Rows

namespace Serialized

theorem ofLedger_cases {rows : Rows} {row : LedgerRow} {s : Serialized}
    (h : ofLedger row (rows.transactionsOf row.seq) (rows.feesOf row.seq) = .ok s) :
    (rows.Serializes row s.documents ∧ s.stats.ledgers = 1 ∧ s.unindexable = []) ∨
      (rows.Overflows row ∧ s = { unindexable := [row.seq] }) := by
  rcases ofLedger_eq_ok.mp h with ⟨ds, stats, hl, rfl⟩ | ⟨ds, field, value, hl, rfl⟩
  · exact .inl ⟨⟨stats, hl⟩, Serialize.ledgers_ledger hl, rfl⟩
  · exact .inr ⟨⟨ds, field, value, hl⟩, rfl⟩

theorem append_empty (s : Serialized) : s ++ {} = s := by
  show Serialized.mk .. = s
  rw [show s.stats + {} = s.stats from rfl, List.append_nil, List.append_nil]

theorem ofLedgers_singleton_cases {rows : Rows} {row : LedgerRow} {s : Serialized}
    (h : ofLedgers rows [row] = (s, .ok ())) :
    (rows.Serializes row s.documents ∧ s.stats.ledgers = 1 ∧ s.unindexable = []) ∨
      (rows.Overflows row ∧ s = { unindexable := [row.seq] }) := by
  obtain ⟨first, more, hf, hr, rfl⟩ := ofLedgers_cons_eq_ok.mp h
  obtain rfl : {} = more := (Prod.mk.inj hr).1
  rw [append_empty]
  exact ofLedger_cases hf

/-- Every ledger is counted once: as one with documents or as one left out. -/
theorem length_ofLedgers {rows : Rows} {ledgers : List LedgerRow} {s : Serialized}
    (h : ofLedgers rows ledgers = (s, .ok ())) :
    ledgers.length = s.unindexable.length + s.stats.ledgers := by
  induction ledgers generalizing s with
  | nil =>
    obtain ⟨rfl, -⟩ := Prod.mk.injEq .. ▸ h
    rfl
  | cons row rest ih =>
    obtain ⟨first, more, hf, hr, rfl⟩ := ofLedgers_cons_eq_ok.mp h
    show rest.length + 1 = (first.unindexable ++ more.unindexable).length +
      (first.stats.ledgers + more.stats.ledgers)
    rw [ih hr, List.length_append]
    rcases ofLedger_cases hf with ⟨-, hs, hu⟩ | ⟨-, rfl⟩
    · rw [hs, hu, List.length_nil]
      omega
    · show _ = 1 + more.unindexable.length + (0 + more.stats.ledgers)
      omega

theorem mem_unindexable {rows : Rows} {ledgers : List LedgerRow} {s : Serialized}
    (h : ofLedgers rows ledgers = (s, .ok ())) {seq : UInt32} :
    seq ∈ s.unindexable ↔ ∃ row ∈ ledgers, row.seq = seq ∧ rows.Overflows row := by
  induction ledgers generalizing s with
  | nil =>
    obtain ⟨rfl, -⟩ := Prod.mk.injEq .. ▸ h
    simp
  | cons row rest ih =>
    obtain ⟨first, more, hf, hr, rfl⟩ := ofLedgers_cons_eq_ok.mp h
    have hmem : seq ∈ (first ++ more).unindexable ↔
        seq ∈ first.unindexable ∨ seq ∈ more.unindexable := List.mem_append
    rw [hmem, ih hr]
    rcases ofLedger_cases hf with ⟨hs, -, hu⟩ | ⟨ho, rfl⟩
    · simp [hu, hs.not_overflows]
    · simp [ho, eq_comm]

/-- A ledger of the run that was not left out has all of its documents in the body. -/
theorem exists_serializes {rows : Rows} {ledgers : List LedgerRow} {s : Serialized}
    (h : ofLedgers rows ledgers = (s, .ok ())) {row : LedgerRow} (hrow : row ∈ ledgers) :
    rows.Overflows row ∨ ∃ ds, rows.Serializes row ds ∧ ds ⊆ s.documents := by
  induction ledgers generalizing s with
  | nil => exact nomatch hrow
  | cons r rest ih =>
    obtain ⟨first, more, hf, hr, rfl⟩ := ofLedgers_cons_eq_ok.mp h
    have hdocs : (first ++ more).documents = first.documents ++ more.documents := rfl
    rw [hdocs]
    rcases List.mem_cons.mp hrow with rfl | hrow
    · rcases ofLedger_cases hf with ⟨hs, -, -⟩ | ⟨ho, -⟩
      · exact .inr ⟨_, hs, List.subset_append_left _ _⟩
      · exact .inl ho
    · rcases ih hr hrow with ho | ⟨ds, hs, hsub⟩
      · exact .inl ho
      · exact .inr ⟨ds, hs, List.Subset.trans hsub (List.subset_append_right _ _)⟩

/-- Every document of the body is one of a ledger of the run. -/
theorem exists_of_mem_documents {rows : Rows} {ledgers : List LedgerRow} {s : Serialized}
    (h : ofLedgers rows ledgers = (s, .ok ())) {d : Document} (hd : d ∈ s.documents) :
    ∃ row ∈ ledgers, ∃ ds, rows.Serializes row ds ∧ d ∈ ds := by
  induction ledgers generalizing s with
  | nil =>
    obtain ⟨rfl, -⟩ := Prod.mk.injEq .. ▸ h
    exact nomatch hd
  | cons r rest ih =>
    obtain ⟨first, more, hf, hr, rfl⟩ := ofLedgers_cons_eq_ok.mp h
    rcases List.mem_append.mp hd with hd | hd
    · rcases ofLedger_cases hf with ⟨hs, -, -⟩ | ⟨-, rfl⟩
      · exact ⟨r, by simp, _, hs, hd⟩
      · exact nomatch hd
    · obtain ⟨row, hrow, hs⟩ := ih hr hd
      exact ⟨row, List.mem_cons_of_mem _ hrow, hs⟩

end Serialized

end LedgerSearch
