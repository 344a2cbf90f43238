import Mathlib
import LedgerSearch.Proofs.Serialize.Unindexable

/-
  Whether a run of ledgers goes to its end (`Serialized.completes_iff`). No error stops a run, only
  arithmetic does: a count that is not a 32-bit number, or a difference of two balances that is not
  a 64-bit number. Balances that are not negative have no such difference
  (`BalanceDoc.Solvent.inRange`), but nothing checks that those of a change log are not.
-/

namespace LedgerSearch

/-! ## Balances that are not negative -/

namespace BalanceDoc

/-- No balance the log tells of is negative. -/
def Solvent (changes : List EntryChange) : Prop :=
  ∀ change ∈ changes, ∀ p ∈ change.balance?, 0 ≤ p.2.toInt

theorem nonneg_lookup {seen : List (Holding × Int64)} (h : ∀ p ∈ seen, 0 ≤ p.2.toInt)
    (holding : Holding) : 0 ≤ ((seen.lookup holding).getD 0).toInt := by
  cases hl : seen.lookup holding with
  | none => exact Int.le_refl 0
  | some balance =>
    obtain ⟨before, after, rfl, -⟩ := List.lookup_eq_some_iff.mp hl
    exact h (holding, balance) (List.mem_append_right _ List.mem_cons_self)

theorem inRange_balanceStep? {seen : List (Holding × Int64)} {change : EntryChange}
    {s : BalanceStep} (hseen : ∀ p ∈ seen, 0 ≤ p.2.toInt)
    (hchange : ∀ p ∈ change.balance?, 0 ≤ p.2.toInt) (hs : change.balanceStep? seen = some s) :
    s.InRange := by
  cases change with
  | state e => exact nomatch hs
  | removed key => exact nomatch hs
  | created e =>
    obtain ⟨p, -, rfl⟩ := Option.map_eq_some_iff.mp hs
    exact trivial
  | updated e =>
    obtain ⟨p, hp, rfl⟩ := Option.map_eq_some_iff.mp hs
    have hnew : 0 ≤ p.2.toInt := hchange p hp
    have hold := nonneg_lookup hseen p.1
    have hnew_le := p.2.toInt_le
    have hold_le := ((seen.lookup p.1).getD 0).toInt_le
    have hmin : Int64.minValue.toInt = -9223372036854775808 := by decide
    have hmax : Int64.maxValue.toInt = 9223372036854775807 := by decide
    constructor <;> omega

theorem inRange_stepsAfter {seen : List (Holding × Int64)} {changes : List EntryChange}
    (hseen : ∀ p ∈ seen, 0 ≤ p.2.toInt) (h : Solvent changes) {s : BalanceStep}
    (hs : s ∈ stepsAfter seen changes) : s.InRange := by
  induction changes generalizing seen with
  | nil => exact nomatch hs
  | cons change rest ih =>
    obtain ⟨hchange, hrest⟩ := List.forall_mem_cons.mp h
    rcases List.mem_append.mp hs with hs | hs
    · exact inRange_balanceStep? hseen hchange (Option.mem_toList.mp hs)
    · refine ih (fun p hp => ?_) hrest hs
      rcases List.mem_append.mp hp with hp | hp
      · exact hchange p (Option.mem_toList.mp hp)
      · exact hseen p hp

theorem Solvent.inRange {changes : List EntryChange} (h : Solvent changes) : InRange changes :=
  fun _ hs => inRange_stepsAfter (List.forall_mem_nil _) h hs

end BalanceDoc

/-- No balance of the ledger is negative. -/
def Rows.Solvent (rows : Rows) (row : LedgerRow) : Prop :=
  ∀ tx ∈ rows.transactionsOf row.seq, tx.isSuccess = true →
    ∀ log ∈ tx.balanceLogs (rows.feesOf row.seq), BalanceDoc.Solvent log

theorem Rows.Solvent.inRange {rows : Rows} {row : LedgerRow} (h : rows.Solvent row) :
    rows.InRange row :=
  fun tx htx hsuccess log hlog => (h tx htx hsuccess log hlog).inRange

/-! ## The end of a run -/

namespace Serialized

variable {rows : Rows} {row : LedgerRow} {ledgers : List LedgerRow} {failure : Failure}

theorem ofLedger_failure
    (h : ofLedger row (rows.transactionsOf row.seq) (rows.feesOf row.seq) = .error failure) :
    (¬ rows.Counts row ∧ ∃ o, failure = .overflow o) ∨
      (rows.Breaks row ∧ failure = .overflow .subtract) := by
  by_cases hc : rows.Counts row
  · by_cases hb : rows.Breaks row
    · rw [ofLedger_of_overflow (hc.emit_breaks hb)] at h
      exact .inr ⟨hb, (Except.error.inj h).symm⟩
    · obtain ⟨s, hs⟩ := exists_ofLedger_iff.mpr ⟨hc, hb⟩
      rw [hs] at h
      exact nomatch h
  · obtain ⟨o, ho⟩ := Rows.exists_emit_overflow hc
    rw [ofLedger_of_overflow ho] at h
    exact .inl ⟨hc, o, (Except.error.inj h).symm⟩

/-- A run fails as the first ledger does that fails. -/
theorem exists_ofLedger_failure (h : (ofLedgers rows ledgers).2 = .error failure) :
    ∃ row ∈ ledgers,
      ofLedger row (rows.transactionsOf row.seq) (rows.feesOf row.seq) = .error failure := by
  induction ledgers with
  | nil => exact nomatch h
  | cons row rest ih =>
    rw [ofLedgers] at h
    cases hf : ofLedger row (rows.transactionsOf row.seq) (rows.feesOf row.seq) with
    | error e =>
      rw [hf] at h
      obtain rfl := Except.error.inj h
      exact ⟨row, List.mem_cons_self, hf⟩
    | ok first =>
      rw [hf] at h
      obtain ⟨row', hrow', hf'⟩ := ih h
      exact ⟨row', List.mem_cons_of_mem _ hrow', hf'⟩

theorem ok_iff_exists :
    (ofLedgers rows ledgers).2 = .ok () ↔ ∃ out, ofLedgers rows ledgers = (out, .ok ()) := by
  constructor
  · intro h
    exact ⟨_, Prod.ext rfl h⟩
  · intro h
    obtain ⟨out, hout⟩ := h
    rw [hout]

/-- A run goes to its end exactly where the ledgers can be counted and no difference of balances is
    reached that leaves 64 bits; the ledgers that are too large are then those left out. An error
    does not stop it, but a difference of that kind does, and one is reached in every ledger that
    has one and is not too large. -/
theorem completes_iff (rows : Rows) (ledgers : List LedgerRow) :
    ((ofLedgers rows ledgers).2 = .ok () ↔
        ∀ row ∈ ledgers, rows.Counts row ∧ ¬ rows.Breaks row) ∧
      (∀ row, ¬ rows.Exceeds row → (rows.Breaks row ↔ ¬ rows.InRange row)) ∧
      (∀ out, ofLedgers rows ledgers = (out, .ok ()) →
        ∀ row ∈ ledgers, row.seq ∈ out.unindexable ↔ rows.Exceeds row) ∧
      ∀ failure, (ofLedgers rows ledgers).2 = .error failure →
        ((∃ row ∈ ledgers, ¬ rows.Counts row) ∧ ∃ o, failure = .overflow o) ∨
          ((∃ row ∈ ledgers, rows.Breaks row) ∧ failure = .overflow .subtract) := by
  refine ⟨ok_iff_exists.trans exists_ofLedgers_iff, fun row hrow => ?_, fun out hout => ?_,
    fun failure hfailure => ?_⟩
  · exact Rows.breaks_iff_not_inRange (mt Rows.unplaced_demands.mp hrow)
  · exact mem_unindexable_iff_exceeds hout
  · obtain ⟨row, hrow, hf⟩ := exists_ofLedger_failure hfailure
    rcases ofLedger_failure hf with ⟨hc, ho⟩ | ⟨hb, hs⟩
    · exact .inl ⟨⟨row, hrow, hc⟩, ho⟩
    · exact .inr ⟨⟨row, hrow, hb⟩, hs⟩

/-- A charge that takes an account from one stroop of debt to all that it can have. -/
def overdrawnFee : FeeRow :=
  { Memory.Sample.feeRow 7 1 with
    changes := [.state (Memory.Sample.balanceEntry Memory.Sample.alice (-1)),
      .updated (Memory.Sample.balanceEntry Memory.Sample.alice Int64.maxValue)] }

example : (ofLedgers ⟨sampleRows.transactions, [overdrawnFee]⟩ (sampleCloses.map (·.ledger))).2 =
    .error (.overflow .subtract) := by decide +kernel

/-- Where no balance is negative a run goes to its end. -/
theorem completes_of_solvent (hcounts : ∀ row ∈ ledgers, rows.Counts row)
    (hsolvent : ∀ row ∈ ledgers, rows.Solvent row) : (ofLedgers rows ledgers).2 = .ok () :=
  ok_iff_exists.mpr <| exists_ofLedgers_iff.mpr fun row hrow =>
    ⟨hcounts row hrow, (hsolvent row hrow).inRange.not_breaks⟩

end Serialized

end LedgerSearch
