import Mathlib
import LedgerSearch.Memory.Sample
import LedgerSearch.Proofs.Serialize.BatchContents
import LedgerSearch.Proofs.Serialize.LedgerDemands

/-
  Which ledgers are left out of a bulk body, and that nothing else is affected by it: a ledger is
  left out exactly where some of its parts have no place in a token (`Rows.Exceeds`), and the run is
  otherwise the run without that ledger (`Serialized.unindexable_iff`).
-/

namespace LedgerSearch

/-! ## Ledgers that are too large -/

/-- Some part of the transaction has no place in a token. -/
inductive TransactionRow.Exceeds (fees : List FeeRow) (row : TransactionRow) : Prop where
  | operations (many : 255 < row.envelope.operations.length)
  /-- Of several fee charges of one index the last counts. -/
  | fee {fee : FeeRow} (success : row.isSuccess = true)
      (charged : Serialize.feeOf fees row.index = some fee)
      (many : 255 < BalanceDoc.yield fee.changes)
  | offers (success : row.isSuccess = true) (many : 255 < row.offers.length)
  | balances {i : Nat} {log : List EntryChange} (success : row.isSuccess = true)
      (operation : i < row.envelope.operations.length)
      (changed : row.changes.operations[i]? = some log) (many : 255 < BalanceDoc.yield log)
  /-- Each offer takes two places. -/
  | trades {i : Nat} {op : Operation} {r : OperationResult} {k : KindResult}
      (success : row.isSuccess = true) (operation : row.envelope.operations[i]? = some op)
      (crosses : op.body.kind.crossesOffers = true)
      (result : row.result.operationResults[i]? = some r) (succeeded : r.isSuccess = true)
      (inner : r.inner? = some k) (many : 127 < k.claimed.length)

/-- Some part of the ledger has no place in a token. -/
inductive Rows.Exceeds (rows : Rows) (row : LedgerRow) : Prop where
  | transactions (many : 255 < (rows.transactionsOf row.seq).length)
  | transaction {tx : TransactionRow} (mem : tx ∈ rows.transactionsOf row.seq)
      (exceeds : tx.Exceeds (rows.feesOf row.seq))

/-- Where there are more than 255 entries, one is behind the 255th. -/
theorem exists_place_iff {α : Type} {as : List α} :
    (∃ i a, as[i]? = some a ∧ 255 < i + 1) ↔ 255 < as.length := by
  constructor
  · intro h
    obtain ⟨i, a, ha, hi⟩ := h
    have hlt := (List.getElem?_eq_some_iff.mp ha).1
    omega
  · intro h
    exact ⟨255, as[255], List.getElem?_eq_getElem h, by omega⟩

theorem TradeDoc.lt_length_claims {kind : OperationKind} {result : Option OperationResult}
    {n : Nat} :
    n < (claims kind result).length ↔ ∃ r k, result = some r ∧ r.isSuccess = true ∧
      kind.crossesOffers = true ∧ r.inner? = some k ∧ n < k.claimed.length := by
  cases result with
  | none => simp [claims]
  | some r =>
    cases hs : r.isSuccess <;> cases hc : kind.crossesOffers <;> cases hi : r.inner? <;>
      simp [claims, hs, hc, hi]

namespace TransactionRow

variable {row : TransactionRow} {fees : List FeeRow}

theorem unplaced_logDemands {log : Option (List EntryChange)} :
    Unplaced (logDemands log) ↔ ∃ changes, log = some changes ∧ 255 < BalanceDoc.yield changes := by
  cases log with
  | none => simp [logDemands, Unplaced]
  | some changes => simp [logDemands, BalanceDoc.unplaced_demands]

theorem unplaced_ownDemands : Unplaced (row.ownDemands fees) ↔
    (∃ fee, Serialize.feeOf fees row.index = some fee ∧ 255 < BalanceDoc.yield fee.changes) ∨
      255 < row.offers.length := by
  rw [ownDemands, unplaced_append, unplaced_logDemands, unplaced_effectPlaces]
  simp [Option.map_eq_some_iff]

/-- Too many claims are more than 127: a trade is one event for its buyer and one for its seller. -/
theorem unplaced_effectDemands {i : Nat} {op : Operation} : Unplaced (row.effectDemands i op) ↔
    (∃ log, row.changes.operations[i]? = some log ∧ 255 < BalanceDoc.yield log) ∨
      127 < (TradeDoc.claims op.body.kind (Serialize.resultAt row i)).length := by
  rw [effectDemands, unplaced_append, unplaced_logDemands, unplaced_effectPlaces]
  refine or_congr_right ?_
  omega

theorem unplaced_operationsDemands : Unplaced (row.operationsDemands 0 row.envelope.operations) ↔
    255 < row.envelope.operations.length ∨ row.isSuccess = true ∧
      ∃ i op, row.envelope.operations[i]? = some op ∧ Unplaced (row.effectDemands i op) := by
  unfold operationsDemands
  rw [unplaced_zipIdx, ← exists_place_iff]
  unfold operationDemands
  cases row.isSuccess with
  | false => simp [unplaced_place]
  | true => simp only [unplaced_append, unplaced_place, if_true, true_and, and_or_left, exists_or]

theorem exceeds_iff : row.Exceeds fees ↔
    (row.isSuccess = true ∧ Unplaced (row.ownDemands fees)) ∨
      Unplaced (row.operationsDemands 0 row.envelope.operations) := by
  rw [unplaced_ownDemands, unplaced_operationsDemands]
  simp only [unplaced_effectDemands, TradeDoc.lt_length_claims]
  constructor
  · intro h
    cases h with
    | operations many => exact .inr (.inl many)
    | fee success charged many => exact .inl ⟨success, .inl ⟨_, charged, many⟩⟩
    | offers success many => exact .inl ⟨success, .inr many⟩
    | balances success operation changed many =>
      exact .inr (.inr ⟨success, _, _, List.getElem?_eq_getElem operation, .inl ⟨_, changed, many⟩⟩)
    | trades success operation crosses result succeeded inner many =>
      have hresult : Serialize.resultAt row _ = some _ := (if_pos success).trans result
      exact .inr (.inr ⟨success, _, _, operation, .inr ⟨_, _, hresult, succeeded, crosses, inner,
        many⟩⟩)
  · intro h
    rcases h with ⟨success, ⟨fee, charged, many⟩ | many⟩ | many | ⟨success, i, op, operation, heffect⟩
    · exact .fee success charged many
    · exact .offers success many
    · exact .operations many
    · rcases heffect with ⟨log, changed, many⟩ | ⟨r, k, hresult, succeeded, crosses, inner, many⟩
      · exact .balances success (List.getElem?_eq_some_iff.mp operation).1 changed many
      · have result : row.result.operationResults[i]? = some r := (if_pos success).symm.trans hresult
        exact .trades success operation crosses result succeeded inner many

theorem unplaced_demands {position : Nat} : Unplaced (row.demands fees position) ↔
    255 < position + 1 ∨ row.Exceeds fees := by
  rw [demands, unplaced_append, unplaced_place, unplaced_append, exceeds_iff]
  cases row.isSuccess <;> simp [unplaced_nil]

end TransactionRow

theorem unplaced_transactionsDemands {fees : List FeeRow} {txs : List TransactionRow} :
    Unplaced (transactionsDemands fees 0 txs) ↔
      255 < txs.length ∨ ∃ tx ∈ txs, tx.Exceeds fees := by
  unfold transactionsDemands
  refine (unplaced_zipIdx (f := fun i (tx : TransactionRow) => tx.demands fees i)).trans ?_
  simp only [TransactionRow.unplaced_demands, and_or_left, exists_or]
  rw [exists_place_iff]
  refine or_congr_right ⟨fun h => ?_, fun h => ?_⟩
  · obtain ⟨i, tx, htx, exceeds⟩ := h
    exact ⟨tx, List.mem_of_getElem? htx, exceeds⟩
  · obtain ⟨tx, htx, exceeds⟩ := h
    obtain ⟨i, hi⟩ := List.mem_iff_getElem?.mp htx
    exact ⟨i, tx, hi, exceeds⟩

/-- A ledger demands a place that is not there exactly where some part is one too many. -/
theorem Rows.unplaced_demands {rows : Rows} {row : LedgerRow} :
    Unplaced (rows.demands row) ↔ rows.Exceeds row := by
  rw [Rows.demands, unplaced_transactionsDemands]
  constructor
  · intro h
    rcases h with many | ⟨tx, htx, exceeds⟩
    · exact .transactions many
    · exact .transaction htx exceeds
  · intro h
    cases h with
    | transactions many => exact .inl many
    | transaction mem exceeds => exact .inr ⟨_, mem, exceeds⟩

/-! ## Runs of ledgers -/

namespace Serialized

variable {rows : Rows} {row : LedgerRow} {ledgers before after : List LedgerRow} {out : Serialized}

theorem ofLedgers_append_eq_ok : ofLedgers rows (before ++ after) = (out, .ok ()) ↔
    ∃ s t, ofLedgers rows before = (s, .ok ()) ∧ ofLedgers rows after = (t, .ok ()) ∧
      out = s ++ t := by
  simp only [← Rows.serialize_filing, Filing.serialize_append_eq_ok]

/-- A ledger without place gives no document and no count: the run is that of the other ledgers. -/
theorem ofLedgers_overflows (h : ofLedgers rows (before ++ row :: after) = (out, .ok ()))
    (hrow : rows.Overflows row) :
    ∃ rest earlier later, ofLedgers rows (before ++ after) = (rest, .ok ()) ∧
      out.documents = rest.documents ∧ out.stats = rest.stats ∧
      rest.unindexable = earlier ++ later ∧ out.unindexable = earlier ++ row.seq :: later := by
  obtain ⟨s, tail, hs, htail, rfl⟩ := ofLedgers_append_eq_ok.mp h
  obtain ⟨first, t, hf, ht, rfl⟩ := ofLedgers_cons_eq_ok.mp htail
  rcases ofLedger_cases hf with ⟨hdocs, -, -⟩ | ⟨-, rfl⟩
  · exact absurd hrow hdocs.not_overflows
  refine ⟨s ++ t, s.unindexable, t.unindexable, ofLedgers_append_eq_ok.mpr ⟨s, t, hs, ht, rfl⟩, rfl,
    ?_, rfl, rfl⟩
  show s.stats + ({} + t.stats) = s.stats + t.stats
  rw [Stats.zero_add]

theorem ofLedger_of_overflow {o : Overflow} (h : (rows.emit row).outcome = .error (.overflow o)) :
    ofLedger row (rows.transactionsOf row.seq) (rows.feesOf row.seq) = .error (.overflow o) := by
  unfold Rows.emit at h
  unfold ofLedger
  dsimp only
  rw [h]

theorem exists_ofLedger_iff :
    (∃ s, ofLedger row (rows.transactionsOf row.seq) (rows.feesOf row.seq) = .ok s) ↔
      rows.Counts row ∧ ¬ rows.Breaks row := by
  constructor
  · intro h
    obtain ⟨s, hs⟩ := h
    have hno : ∀ o, (rows.emit row).outcome ≠ .error (.overflow o) := by
      intro o ho
      rw [ofLedger_of_overflow ho] at hs
      exact nomatch hs
    have hc : rows.Counts row := by
      by_contra hc
      obtain ⟨o, ho⟩ := Rows.exists_emit_overflow hc
      exact hno o ho
    exact ⟨hc, fun hb => hno _ (hc.emit_breaks hb)⟩
  · intro h
    rcases h.1.serializes_or_overflows h.2 with ⟨⟨ds, stats, hds⟩, -⟩ | ⟨⟨ds, field, n, hds⟩, -⟩
    · exact ⟨_, ofLedger_eq_ok.mpr (.inl ⟨ds, stats, hds, rfl⟩)⟩
    · exact ⟨_, ofLedger_eq_ok.mpr (.inr ⟨ds, field, n, hds, rfl⟩)⟩

/-- A run goes to its end where the counts and differences of every ledger fit. -/
theorem exists_ofLedgers_iff : (∃ out, ofLedgers rows ledgers = (out, .ok ())) ↔
    ∀ row ∈ ledgers, rows.Counts row ∧ ¬ rows.Breaks row := by
  induction ledgers with
  | nil => exact iff_of_true ⟨_, rfl⟩ (List.forall_mem_nil _)
  | cons row rest ih =>
    rw [List.forall_mem_cons, ← ih, ← exists_ofLedger_iff]
    simp only [ofLedgers_cons_eq_ok]
    constructor
    · intro h
      obtain ⟨_, first, more, hf, hr, -⟩ := h
      exact ⟨⟨first, hf⟩, more, hr⟩
    · intro h
      obtain ⟨⟨first, hf⟩, more, hr⟩ := h
      exact ⟨_, first, more, hf, hr, rfl⟩

end Serialized

theorem Rows.Counts.overflows_iff {rows : Rows} {row : LedgerRow} (hc : rows.Counts row)
    (hb : ¬ rows.Breaks row) : rows.Overflows row ↔ rows.Exceeds row := by
  rw [← Rows.unplaced_demands]
  rcases hc.serializes_or_overflows hb with ⟨⟨ds, hds⟩, hplaced⟩ | ⟨ho, hu⟩
  · exact iff_of_false hds.not_overflows hplaced
  · exact iff_of_true ho hu

/-- Whether a ledger is too large depends on the rows of its sequence only. -/
theorem Rows.Exceeds.congr {rows : Rows} {row row' : LedgerRow} (h : rows.Exceeds row)
    (hseq : row.seq = row'.seq) : rows.Exceeds row' := by
  cases h with
  | transactions many => exact .transactions (hseq ▸ many)
  | transaction mem exceeds => exact .transaction (hseq ▸ mem) (hseq ▸ exceeds)

namespace Serialized

variable {rows : Rows} {row : LedgerRow} {ledgers : List LedgerRow} {out : Serialized}

theorem overflows_iff_of_mem (h : ofLedgers rows ledgers = (out, .ok ())) (hrow : row ∈ ledgers) :
    rows.Overflows row ↔ rows.Exceeds row := by
  obtain ⟨hc, hb⟩ := exists_ofLedgers_iff.mp ⟨out, h⟩ row hrow
  exact hc.overflows_iff hb

/-- The ledgers that a run left out are those that are too large. -/
theorem mem_unindexable_iff_exceeds (h : ofLedgers rows ledgers = (out, .ok ())) :
    ∀ row ∈ ledgers, row.seq ∈ out.unindexable ↔ rows.Exceeds row := by
  intro row hrow
  rw [mem_unindexable h]
  constructor
  · intro hlisted
    obtain ⟨row', hrow', hseq, ho⟩ := hlisted
    exact ((overflows_iff_of_mem h hrow').mp ho).congr hseq
  · intro hexceeds
    exact ⟨row, hrow, rfl, (overflows_iff_of_mem h hrow).mpr hexceeds⟩

/-- Where every ledger can be counted and no difference of balances leaves 64 bits, the ledgers left
    out are those that are too large, and the run is otherwise the run without them. -/
theorem unindexable_iff (hcounts : ∀ row ∈ ledgers, rows.Counts row)
    (hdifferences : ∀ row ∈ ledgers, ¬ rows.Breaks row) :
    ∃ out, ofLedgers rows ledgers = (out, .ok ()) ∧
      (∀ row ∈ ledgers, row.seq ∈ out.unindexable ↔ rows.Exceeds row) ∧
      ∀ before row after, ledgers = before ++ row :: after → rows.Exceeds row →
        ∃ rest earlier later, ofLedgers rows (before ++ after) = (rest, .ok ()) ∧
          out.documents = rest.documents ∧ out.stats = rest.stats ∧
          rest.unindexable = earlier ++ later ∧
          out.unindexable = earlier ++ row.seq :: later := by
  obtain ⟨out, hout⟩ := exists_ofLedgers_iff.mpr fun row hrow =>
    ⟨hcounts row hrow, hdifferences row hrow⟩
  refine ⟨out, hout, mem_unindexable_iff_exceeds hout, fun before row after hledgers hexceeds => ?_⟩
  have hrow : row ∈ ledgers := by
    rw [hledgers]
    exact List.mem_append_right _ List.mem_cons_self
  have ho := (overflows_iff_of_mem hout hrow).mpr hexceeds
  rw [hledgers] at hout
  exact ofLedgers_overflows hout ho

/-- A charge of the payment in ledger 7 that changed one balance too many. -/
def crowdedFee : FeeRow :=
  { Memory.Sample.feeRow 7 1 with
    changes := List.replicate 256 (.created (Memory.Sample.balanceEntry Memory.Sample.alice 1)) }

/-- Rows in which the crowded charge is the one that counts. -/
def crowdedRows : Rows := ⟨sampleRows.transactions, sampleRows.fees ++ [crowdedFee]⟩

theorem unindexable_iff_crowded : ∃ six seven out rest,
    sampleCloses.map (·.ledger) = [six, seven] ∧
      ofLedgers crowdedRows [six, seven] = (out, .ok ()) ∧
      six.seq ∉ out.unindexable ∧ seven.seq ∈ out.unindexable ∧
      ofLedgers crowdedRows [six] = (rest, .ok ()) ∧ out.documents = rest.documents := by
  have hcounts : ∀ row ∈ sampleCloses.map (·.ledger), crowdedRows.Counts row := by
    have hlt : ∀ row ∈ sampleCloses.map (·.ledger),
        (crowdedRows.transactionsOf row.seq).length < UInt32.size ∧
          ((crowdedRows.appliedOf row.seq).map (·.envelope.operations.length)).sum
            < UInt32.size := by decide +kernel
    exact fun row hrow => .of_lt (hlt row hrow).1 (hlt row hrow).2
  have hdifferences : ∀ row ∈ sampleCloses.map (·.ledger), ¬ crowdedRows.Breaks row := by
    have hrange : ∀ row ∈ sampleCloses.map (·.ledger), crowdedRows.InRange row := by
      decide +kernel
    exact fun row hrow => (hrange row hrow).not_breaks
  have hplaces : ∀ row ∈ sampleCloses.map (·.ledger), (row.seq = 6 →
      ∀ d ∈ crowdedRows.demands row, d.Met) ∧ (row.seq = 7 →
      .place "effect_index" 256 ∈ crowdedRows.demands row) := by decide +kernel
  have hseqs : (sampleCloses.map (·.ledger)).map (·.seq) = [6, 7] := by decide +kernel
  obtain ⟨six, seven, hledgers⟩ : ∃ six seven, sampleCloses.map (·.ledger) = [six, seven] :=
    List.length_eq_two.mp (by decide +kernel)
  rw [hledgers] at hcounts hdifferences hplaces hseqs
  injection hseqs with hsix hseqs
  injection hseqs with hseven
  have hexceeds : crowdedRows.Exceeds seven :=
    Rows.unplaced_demands.mp ⟨_, 256, (hplaces seven (by simp)).2 hseven, by decide⟩
  have hfits : ¬ crowdedRows.Exceeds six := by
    intro h
    obtain ⟨field, n, hmem, hn⟩ := Rows.unplaced_demands.mpr h
    exact Nat.not_lt_of_le ((hplaces six (by simp)).1 hsix _ hmem) hn
  obtain ⟨out, hout, hlisted, hdropped⟩ := unindexable_iff hcounts hdifferences
  obtain ⟨rest, -, -, hrest, hdocs, -⟩ := hdropped [six] seven [] rfl hexceeds
  exact ⟨six, seven, out, rest, hledgers, hout, mt (hlisted six (by simp)).mp hfits,
    (hlisted seven (by simp)).mpr hexceeds, hrest, hdocs⟩

/-- Rows in which the crowded charge does not count, as another of its index comes later. -/
def recharged : Rows := ⟨sampleRows.transactions, crowdedFee :: sampleRows.fees⟩

/-- A transaction of ledger 7 without operations. -/
def idle (verdict : TransactionVerdict) : TransactionRow :=
  { Memory.Sample.transactionRow 7 1 with
    envelope := ⟨.plain ⟨⟨Memory.Sample.alice, none⟩, 100, 7, none, .id 1, []⟩, []⟩
    result := ⟨100, verdict⟩ }

/-- One successful transaction among failed ones. -/
def idleRows (failed : Nat) : Rows :=
  ⟨idle (.success []) :: List.replicate failed (idle (.failed [])), []⟩

section

variable {failed : Nat} {row : LedgerRow}

theorem transactionsOf_idleRows : (idleRows failed).transactionsOf 7 =
    idle (.success []) :: List.replicate failed (idle (.failed [])) := by
  refine List.filter_eq_self.mpr fun tx htx => ?_
  rcases List.mem_cons.mp htx with rfl | htx
  · rfl
  · rw [List.eq_of_mem_replicate htx]
    rfl

theorem appliedOf_idleRows : (idleRows failed).appliedOf 7 = [idle (.success [])] := by
  have hsuccess : (idle (.success [])).isSuccess = true := rfl
  have hfailed : ¬ (idle (.failed [])).isSuccess = true := nofun
  rw [Rows.appliedOf, transactionsOf_idleRows, List.filter_cons_of_pos hsuccess,
    List.filter_replicate_of_neg hfailed]

theorem operations_idleRows {tx : TransactionRow} (h : tx ∈ (idleRows failed).transactions) :
    tx.envelope.operations = [] := by
  rcases List.mem_cons.mp h with rfl | h
  · rfl
  · rw [List.eq_of_mem_replicate h]
    rfl

theorem inRange_idleRows : (idleRows failed).InRange row := by
  intro tx htx _
  have hops := operations_idleRows (List.mem_of_mem_filter htx)
  have hlogs : tx.balanceLogs ((idleRows failed).feesOf row.seq) = [] := by
    unfold TransactionRow.balanceLogs
    rw [hops]
    rfl
  rw [hlogs]
  exact List.forall_mem_nil _

/-- As many failed transactions as make the count of all start again at zero. -/
theorem not_counts_idleRows (hseq : row.seq = 7) (h : (failed + 1) % UInt32.size = 0) :
    ¬ (idleRows failed).Counts row := by
  intro hc
  have hle := hc.failed
  rw [hseq, appliedOf_idleRows, transactionsOf_idleRows] at hle
  simp only [List.length_cons, List.length_replicate, h] at hle
  exact absurd hle (by decide)

end

/-- A charge that does not count may have more balances than there are places. And a ledger of
    `2 ^ 32` transactions, which are too many, is not left out: it stops the run. -/
theorem unlisted_recharged_and_uncounted :
    (∃ row ∈ sampleCloses.map (·.ledger), recharged.InRange row ∧
      (recharged.transactions.map (·.envelope.operations.length)).sum < UInt32.size ∧
      (∃ tx ∈ recharged.transactionsOf row.seq, tx.isSuccess = true ∧
        ∃ fee ∈ recharged.feesOf row.seq, fee.index = tx.index ∧
          255 < BalanceDoc.yield fee.changes) ∧
      (ofLedgers recharged [row]).2 = .ok () ∧
      row.seq ∉ (ofLedgers recharged [row]).1.unindexable) ∧
    ∃ failed, ∃ row ∈ sampleCloses.map (·.ledger), (idleRows failed).InRange row ∧
      (∀ tx ∈ (idleRows failed).transactions, tx.envelope.operations = []) ∧
      255 < ((idleRows failed).transactionsOf row.seq).length ∧
      ∀ out, ofLedgers (idleRows failed) [row] ≠ (out, .ok ()) := by
  refine ⟨by decide +kernel, 4294967295, ?_⟩
  obtain ⟨row, hrow, hseq⟩ : ∃ row ∈ sampleCloses.map (·.ledger), row.seq = 7 := by decide +kernel
  refine ⟨row, hrow, inRange_idleRows, fun tx => operations_idleRows, ?_, fun out hout => ?_⟩
  · rw [hseq, transactionsOf_idleRows, List.length_cons, List.length_replicate]
    decide
  · have hfits := exists_ofLedgers_iff.mp ⟨out, hout⟩ row List.mem_cons_self
    exact not_counts_idleRows hseq (by decide) hfits.1

end Serialized

end LedgerSearch
