import Mathlib
import LedgerSearch.Serialize.Filing

/-
  Runs of ledgers with rows filed under sequences. A run is worked off ledger by ledger: two runs,
  one behind the other, come to what both come to, and what is filed under other sequences does not
  matter.
-/

namespace LedgerSearch

namespace Stats

theorem add_assoc (s t u : Stats) : s + t + u = s + (t + u) := by
  show Stats.mk .. = Stats.mk ..
  congr 1 <;> exact Nat.add_assoc _ _ _

theorem zero_add (s : Stats) : {} + s = s := by
  show Stats.mk .. = Stats.mk ..
  congr 1 <;> exact Nat.zero_add _

end Stats

namespace Serialized

theorem append_assoc (s t u : Serialized) : s ++ t ++ u = s ++ (t ++ u) := by
  show Serialized.mk .. = Serialized.mk ..
  congr 1
  · exact List.append_assoc _ _ _
  · exact Stats.add_assoc _ _ _
  · exact List.append_assoc _ _ _

theorem empty_append (s : Serialized) : {} ++ s = s := by
  show Serialized.mk .. = s
  rw [Stats.zero_add]
  rfl

end Serialized

/-! ## Rows by sequence -/

theorem fileBy_apply {Row : Type} (seq : Row → UInt32) (rows : List Row) (s : UInt32) :
    fileBy seq rows s = rows.filter (seq · = s) := by
  induction rows using List.reverseRecOn with
  | nil => rfl
  | append_singleton rows row ih =>
    rw [fileBy, List.foldl_append, List.filter_append]
    show Function.update (fileBy seq rows) (seq row) (fileBy seq rows (seq row) ++ [row]) s = _
    by_cases hs : seq row = s
    · subst hs
      rw [Function.update_self, ih]
      simp
    · rw [Function.update_of_ne (Ne.symm hs), ih]
      simp [hs]

namespace Filing

/-- The two hold the same under these sequences. -/
def AgreeOn (m m' : Filing) (seqs : List UInt32) : Prop :=
  ∀ seq ∈ seqs, m.transactions seq = m'.transactions seq ∧ m.fees seq = m'.fees seq

variable {m m' : Filing} {ledgers before after : List LedgerRow} {out : Serialized}

theorem serialize_cons_eq_ok {row : LedgerRow} :
    m.serialize (row :: ledgers) = (out, .ok ()) ↔
      ∃ first more, Serialized.ofLedger row (m.transactions row.seq) (m.fees row.seq) = .ok first ∧
        m.serialize ledgers = (more, .ok ()) ∧ out = first ++ more := by
  rw [serialize]
  cases h : Serialized.ofLedger row (m.transactions row.seq) (m.fees row.seq) with
  | error failure => simp
  | ok first =>
    obtain ⟨more, o⟩ := m.serialize ledgers
    simp only [Prod.mk.injEq, Except.ok.injEq]
    constructor
    · intro h
      obtain ⟨rfl, rfl⟩ := h
      exact ⟨first, more, rfl, ⟨rfl, rfl⟩, rfl⟩
    · intro h
      obtain ⟨_, _, rfl, ⟨rfl, rfl⟩, rfl⟩ := h
      exact ⟨rfl, rfl⟩

/-- Two runs, one behind the other. -/
theorem serialize_append_eq_ok : m.serialize (before ++ after) = (out, .ok ()) ↔
    ∃ s t, m.serialize before = (s, .ok ()) ∧ m.serialize after = (t, .ok ()) ∧ out = s ++ t := by
  induction before generalizing out with
  | nil =>
    constructor
    · intro h
      exact ⟨{}, out, rfl, h, (Serialized.empty_append out).symm⟩
    · intro h
      obtain ⟨s, t, hs, ht, rfl⟩ := h
      obtain rfl : {} = s := (Prod.mk.inj hs).1
      rwa [Serialized.empty_append]
  | cons row rest ih =>
    rw [List.cons_append, serialize_cons_eq_ok]
    simp only [serialize_cons_eq_ok, ih]
    constructor
    · intro h
      obtain ⟨first, _, hf, ⟨s, t, hs, ht, rfl⟩, rfl⟩ := h
      exact ⟨first ++ s, t, ⟨first, s, hf, hs, rfl⟩, ht, (Serialized.append_assoc first s t).symm⟩
    · intro h
      obtain ⟨_, t, ⟨first, s, hf, hs, rfl⟩, ht, rfl⟩ := h
      exact ⟨first, s ++ t, hf, ⟨s, t, hs, ht, rfl⟩, Serialized.append_assoc first s t⟩

/-- What is filed under other sequences does not matter. -/
theorem serialize_congr (h : m.AgreeOn m' (ledgers.map (·.seq))) :
    m.serialize ledgers = m'.serialize ledgers := by
  induction ledgers with
  | nil => rfl
  | cons row rest ih =>
    obtain ⟨⟨htxs, hfees⟩, hrest⟩ := List.forall_mem_cons.mp h
    rw [serialize, serialize, htxs, hfees, ih hrest]

end Filing

namespace Rows

theorem transactions_filing (rows : Rows) (seq : UInt32) :
    rows.filing.transactions seq = rows.transactionsOf seq := fileBy_apply _ _ _

theorem fees_filing (rows : Rows) (seq : UInt32) : rows.filing.fees seq = rows.feesOf seq :=
  fileBy_apply _ _ _

/-- The rows of a run are filed under their own sequences. -/
theorem serialize_filing (rows : Rows) (ledgers : List LedgerRow) :
    rows.filing.serialize ledgers = Serialized.ofLedgers rows ledgers := by
  induction ledgers with
  | nil => rfl
  | cons row rest ih =>
    rw [Filing.serialize, transactions_filing, fees_filing, ih]
    rfl

end Rows

end LedgerSearch
