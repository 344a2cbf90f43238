import Mathlib
import LedgerSearch.Proofs.Serialize.AlikeRows
import LedgerSearch.Proofs.Serialize.DocumentIds

/-
  What the indexes of a ledger's rows are for. They find the fee charge of a transaction and do
  nothing else: ledgers that number the same transactions, each in its own way, are serialized alike
  where the same changes stand under the index of each (`Serialize.ledger_sameCharged`), whatever
  the order of the charges. Where a document stands, and its id, come from the place of its
  transaction in the list (`Serialize.ledger_matching`).
-/

namespace LedgerSearch

/-- The row under another index. -/
def TransactionRow.renumber (f : UInt32 → UInt32) (row : TransactionRow) : TransactionRow :=
  { row with index := f row.index }

/-- The row under another index. -/
def FeeRow.renumber (f : UInt32 → UInt32) (row : FeeRow) : FeeRow :=
  { row with index := f row.index }

/-! ## Finding a charge -/

section

variable {fees fees' : List FeeRow} {row row' : TransactionRow}

theorem Serialize.mem_of_feeOf {index : UInt32} {fee : FeeRow} (h : feeOf fees index = some fee) :
    fee ∈ fees ∧ fee.index = index := by
  have hindex := List.find?_some h
  exact ⟨List.mem_reverse.mp (List.mem_of_find?_eq_some h), of_decide_eq_true hindex⟩

/-- Where no index occurs twice, the charge found is the one that has the index. -/
theorem Serialize.feeOf_eq_some_iff (hfees : (fees.map (·.index)).Nodup) {index : UInt32}
    {fee : FeeRow} : feeOf fees index = some fee ↔ fee ∈ fees ∧ fee.index = index := by
  constructor
  · exact mem_of_feeOf
  · intro h
    cases hfound : feeOf fees index with
    | none =>
      exact absurd (decide_eq_true h.2)
        (List.find?_eq_none.mp hfound fee (List.mem_reverse.mpr h.1))
    | some found =>
      obtain ⟨hmem, hindex⟩ := mem_of_feeOf hfound
      exact congrArg some (List.inj_on_of_nodup_map hfees hmem h.1 (hindex.trans h.2.symm))

namespace TransactionRow

theorem charge_eq_some_iff (hfees : (fees.map (·.index)).Nodup) {changes : List EntryChange} :
    row.charge fees = some changes ↔
      ∃ fee ∈ fees, fee.index = row.index ∧ fee.changes = changes := by
  simp only [charge, Option.map_eq_some_iff, Serialize.feeOf_eq_some_iff hfees, and_assoc]

/-- One transaction under the indexes of two ledgers: the charges of the ledgers hold the same
    changes under them. -/
structure SameCharged (fees fees' : List FeeRow) (row row' : TransactionRow) : Prop where
  renumber : row.renumber (fun _ => row'.index) = row'
  charges : ∀ changes, (∃ fee ∈ fees, fee.index = row.index ∧ fee.changes = changes) ↔
    ∃ fee ∈ fees', fee.index = row'.index ∧ fee.changes = changes

theorem SameCharged.alike (hfees : (fees.map (·.index)).Nodup)
    (hfees' : (fees'.map (·.index)).Nodup) (h : SameCharged fees fees' row row') :
    Alike fees fees' row row' := by
  have hcharge : row.charge fees = row'.charge fees' := by
    refine Option.ext fun changes => ?_
    rw [charge_eq_some_iff hfees, charge_eq_some_iff hfees', h.charges]
  rw [← h.renumber] at hcharge ⊢
  exact ⟨rfl, rfl, rfl, rfl, rfl, rfl, fun _ => rfl, fun _ => rfl, fun _ => hcharge⟩

theorem sameCharged_perm (h : fees'.Perm fees) : SameCharged fees fees' row row := by
  refine ⟨rfl, fun changes => ?_⟩
  simp only [h.mem_iff]

/-- A renumbering that keeps the index of the transaction apart from those of the charges of
    others. -/
theorem sameCharged_renumber {f : UInt32 → UInt32}
    (hf : ∀ fee ∈ fees, f fee.index = f row.index → fee.index = row.index) :
    SameCharged fees (fees.map (·.renumber f)) row (row.renumber f) := by
  refine ⟨rfl, fun changes => ?_⟩
  constructor
  · intro h
    obtain ⟨fee, hfee, hindex, rfl⟩ := h
    exact ⟨fee.renumber f, List.mem_map_of_mem hfee, congrArg f hindex, rfl⟩
  · intro h
    obtain ⟨_, hrenumbered, hindex, rfl⟩ := h
    obtain ⟨fee, hfee, rfl⟩ := List.mem_map.mp hrenumbered
    exact ⟨fee, hfee, hf fee hfee hindex, rfl⟩

end TransactionRow

end

/-! ## The order of transactions -/

namespace Serialize

open TransactionRow (SameCharged sameCharged_perm sameCharged_renumber)

/-- Ledgers of the same transactions with the same charges, each under indexes of its own. -/
theorem ledger_sameCharged {fees fees' : List FeeRow} {txs txs' : List TransactionRow}
    (hfees : (fees.map (·.index)).Nodup) (hfees' : (fees'.map (·.index)).Nodup)
    (h : List.Forall₂ (SameCharged fees fees') txs txs') (row : LedgerRow) :
    ledger row txs fees = ledger row txs' fees' :=
  ledger_congr (h.imp fun _ _ hrow => hrow.alike hfees hfees') row

variable {fees : List FeeRow}

theorem index_effectsOf {ledger : LedgerRow} {row : TransactionRow} {tx : TransactionDoc}
    {ds : List Document} {s : Stats} (h : effectsOf ledger fees row tx = ⟨ds, .ok s⟩)
    {d : Document} (hd : d ∈ ds) : d.index ≠ .transaction := by
  intro hindex
  have hlo := ((ascending_effectsOf h).within _ (List.mem_map_of_mem hd)).1
  obtain ⟨hl, ht, -⟩ := effectsOf_place h hd
  cases d with
  | transaction doc =>
    -- its token would be that of the transaction itself, and effects come after it
    have htoken : doc.token = tx.token := congrArg₂ Token.ofTransaction hl ht
    rw [Document.token, htoken] at hlo
    omega
  | _ => cases hindex

theorem index_operationsFrom {row : TransactionRow} {tx : TransactionDoc} {ds : List Document}
    {s : Stats} (h : operationsFrom row tx 0 row.envelope.operations = ⟨ds, .ok s⟩)
    {d : Document} (hd : d ∈ ds) : d.index ≠ .transaction := by
  intro hindex
  obtain ⟨j, hj⟩ := exists_ofOperation [] rfl h hd
  have hplace := hj.place.2.2
  cases d with
  | transaction doc => cases hplace
  | _ => cases hindex

/-- A transaction gives one document of its own kind, which holds its one-based place. -/
theorem filter_transaction {ledger : LedgerRow} {position : ℕ} {row : TransactionRow}
    {ds : List Document} {s : Stats} (h : transaction ledger fees position row = ⟨ds, .ok s⟩) :
    position < 255 ∧ ds.filter (·.index = .transaction) =
      [.transaction (.ofRow row (UInt8.ofNat (position + 1)) ledger.closeTime)] := by
  obtain ⟨order, ds₁, effects, ds₂, operations, ho, he, hr, -, rfl⟩ := transaction_eq_ok.mp h
  have horder := orderOfPosition_eq_ok ho
  have hlt := order.toNat_lt
  obtain rfl : order = UInt8.ofNat (position + 1) := by rw [← horder, UInt8.ofNat_toNat]
  have hnone : (ds₁ ++ ds₂).filter (·.index = .transaction) = [] := by
    refine List.filter_eq_nil_iff.mpr fun d hd hindex => ?_
    rcases List.mem_append.mp hd with hd | hd
    · exact index_effectsOf he hd (of_decide_eq_true hindex)
    · exact index_operationsFrom hr hd (of_decide_eq_true hindex)
  refine ⟨by omega, ?_⟩
  rw [List.filter_cons_of_pos rfl, hnone]

theorem filter_transactionsFrom {ledger : LedgerRow} {position : ℕ} {txs : List TransactionRow}
    {ds : List Document} {s : Stats} (hfirst : position ≤ 255)
    (h : transactionsFrom ledger fees position txs = ⟨ds, .ok s⟩) :
    position + txs.length ≤ 255 ∧ ds.filter (·.index = .transaction) =
      txs.mapIdx fun k tx =>
        .transaction (.ofRow tx (UInt8.ofNat (position + k + 1)) ledger.closeTime) := by
  induction txs generalizing position ds s with
  | nil =>
    obtain ⟨rfl, -⟩ := Emit.pure_eq_ok.mp h
    exact ⟨hfirst, rfl⟩
  | cons row rest ih =>
    obtain ⟨ds₁, this, ds₂, more, ht, hr, -, rfl⟩ := transactionsFrom_cons_eq_ok.mp h
    obtain ⟨hlt, hthis⟩ := filter_transaction ht
    obtain ⟨hle, hmore⟩ := ih hlt hr
    refine ⟨by rw [List.length_cons]; omega, ?_⟩
    rw [List.filter_append, hthis, hmore, List.mapIdx_cons]
    simp only [List.singleton_append, Nat.add_zero, Nat.add_right_comm position 1, Nat.add_assoc]

/-- Where the charges of a ledger have indexes that differ, only the charge that shares an index
    with a transaction matters: neither the order of the charges nor the numbers themselves, as long
    as different ones stay different. The documents of the transactions are in the order of the
    transactions, and every id holds the one-based places of a transaction and operation in their
    lists. -/
theorem ledger_matching {row : LedgerRow} {txs : List TransactionRow}
    (hfees : (fees.map (·.index)).Nodup) :
    (∀ fees', fees'.Perm fees → ledger row txs fees' = ledger row txs fees) ∧
    (∀ f : UInt32 → UInt32, Set.InjOn f {i | i ∈ txs.map (·.index) ∨ i ∈ fees.map (·.index)} →
      ledger row (txs.map (·.renumber f)) (fees.map (·.renumber f)) = ledger row txs fees) ∧
    (∀ txs' fees', (fees'.map (·.index)).Nodup → List.Forall₂ (SameCharged fees fees') txs txs' →
      ledger row txs' fees' = ledger row txs fees) ∧
    ∀ ds stats, ledger row txs fees = ⟨ds, .ok stats⟩ →
      txs.length ≤ 255 ∧
      ds.filter (·.index = .transaction) = txs.mapIdx (fun k tx =>
        .transaction (.ofRow tx (UInt8.ofNat (k + 1)) row.closeTime)) ∧
      ∀ d ∈ ds, ∃ k j, Concerns row txs fees k j d ∧
        d.token.transaction.toNat = k ∧ d.token.operation.toNat = j ∧
        ((∀ tx ∈ txs, tx.seq = row.seq) → d.token.ledger = row.seq) := by
  refine ⟨fun fees' hperm => ?_, fun f hf => ?_, fun txs' fees' hfees' h => ?_,
    fun ds stats h => ?_⟩
  · have hfees' : (fees'.map (·.index)).Nodup := (hperm.map (·.index)).nodup_iff.mpr hfees
    have hrows := List.forall₂_same.mpr fun tx (_ : tx ∈ txs) => sameCharged_perm hperm
    exact (ledger_sameCharged hfees hfees' hrows row).symm
  · have hmem {fee : FeeRow} (hfee : fee ∈ fees) : fee.index ∈ fees.map (·.index) :=
      List.mem_map_of_mem hfee
    -- numbers that differ stay different, so each row finds the charge that it found before
    have hfees' : ((fees.map (·.renumber f)).map (·.index)).Nodup := by
      rw [List.map_map]
      refine (List.Nodup.of_map _ hfees).map_on fun fee hfee other hother heq => ?_
      exact List.inj_on_of_nodup_map hfees hfee hother
        (hf (.inr (hmem hfee)) (.inr (hmem hother)) heq)
    have hrows : List.Forall₂ (SameCharged fees (fees.map (·.renumber f))) txs
        (txs.map (·.renumber f)) := by
      refine List.forall₂_map_right_iff.mpr (List.forall₂_same.mpr fun tx htx => ?_)
      exact sameCharged_renumber fun fee hfee =>
        hf (.inr (hmem hfee)) (.inl (List.mem_map_of_mem htx))
    exact (ledger_sameCharged hfees hfees' hrows row).symm
  · exact (ledger_sameCharged hfees hfees' h row).symm
  · obtain ⟨doc, ds₁, rest, hdoc, hr, -, rfl⟩ := ledger_eq_ok.mp h
    obtain ⟨hle, hfilter⟩ := filter_transactionsFrom (Nat.zero_le _) hr
    simp only [Nat.zero_add] at hle hfilter
    refine ⟨hle, hfilter, fun d hd => ?_⟩
    obtain ⟨k, j, hc⟩ := exists_concerns h hd
    exact ⟨k, j, hc, hc.positions.1, hc.positions.2, fun hseq => (hc.place hseq).1⟩

/-- Two payments and their charges: the charges turned around, and all of them under indexes that
    fall where the others rise. -/
theorem ledger_matching_turned :
    ∃ (c : LedgerClose) (ds : List Document) (stats : Stats), c ∈ sampleCloses ∧
      c.fees.map (·.index) = [1, 2] ∧ ledger c.ledger c.transactions c.fees = ⟨ds, .ok stats⟩ ∧
      ledger c.ledger c.transactions c.fees.reverse = ⟨ds, .ok stats⟩ ∧
      ledger c.ledger (c.transactions.map (·.renumber (9 - ·))) (c.fees.map (·.renumber (9 - ·))) =
        ⟨ds, .ok stats⟩ ∧
      (ds.filter (·.index = .transaction)).map (·.token.transaction) = [1, 2] := by
  have hfirst : (sampleCloses.head?.map fun c => (c.fees.map (·.index), c.transactions.length,
      (ledger c.ledger c.transactions c.fees).outcome.toOption.isSome)) =
      some ([1, 2], 2, true) := by
    decide +kernel
  obtain ⟨c, hc, hsample⟩ := Option.map_eq_some_iff.mp hfirst
  injection hsample with hfees hsample
  injection hsample with htxs hok
  obtain ⟨first, second, htxs⟩ := List.length_eq_two.mp htxs
  have hnodup : (c.fees.map (·.index)).Nodup := by rw [hfees]; decide
  have hinjective : Function.Injective fun i : UInt32 => 9 - i := fun i j h => by
    simpa using h
  obtain ⟨hperm, hrenumber, -, hplaces⟩ := @ledger_matching c.fees c.ledger c.transactions hnodup
  cases hledger : ledger c.ledger c.transactions c.fees with
  | mk ds o =>
  cases o with
  | error failure =>
    rw [hledger] at hok
    cases hok
  | ok stats =>
    obtain ⟨-, horder, -⟩ := hplaces ds stats hledger
    refine ⟨c, ds, stats, List.mem_of_head? hc, hfees, hledger, ?_, ?_, ?_⟩
    · rw [hperm _ c.fees.reverse_perm, hledger]
    · rw [hrenumber _ hinjective.injOn, hledger]
    · rw [horder, htxs]
      rfl

end Serialize

end LedgerSearch
