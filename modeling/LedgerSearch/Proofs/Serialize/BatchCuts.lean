import Mathlib
import LedgerSearch.Proofs.Bulk.Lines

/-
  Runs of ledgers cut into batches: the bodies of the batches, one behind the other, are the body of
  the run (`Filing.serialize_parts`).
-/

namespace LedgerSearch

namespace Serialized

/-- Documents of two runs make the two bodies, one behind the other. -/
theorem body_append (deployment : String) (s t : Serialized) :
    (s ++ t).body deployment = s.body deployment ++ t.body deployment := by
  rw [body, documents_append, BulkBody.text_ofDocuments_append]
  rfl

/-- The runs, one behind the other. -/
theorem foldr_append (outs : List Serialized) : outs.foldr (· ++ ·) ({} : Serialized) =
    ⟨outs.flatMap (·.documents), outs.foldr (fun s sum => s.stats + sum) {},
      outs.flatMap (·.unindexable)⟩ := by
  induction outs with
  | nil => rfl
  | cons s rest ih =>
    rw [List.foldr_cons, ih]
    rfl

theorem body_foldr_append (deployment : String) (outs : List Serialized) :
    (outs.foldr (· ++ ·) ({} : Serialized)).body deployment =
      String.join (outs.map (·.body deployment)) := by
  induction outs with
  | nil => rfl
  | cons s rest ih => rw [List.foldr_cons, body_append, ih, List.map_cons, String.join_cons]

end Serialized

/-- The rows of these sequences. -/
def Rows.restrict (rows : Rows) (seqs : List UInt32) : Rows :=
  ⟨rows.transactions.filter (·.seq ∈ seqs), rows.fees.filter (·.seq ∈ seqs)⟩

theorem Rows.agreeOn_restrict (rows : Rows) (seqs : List UInt32) :
    rows.filing.AgreeOn (rows.restrict seqs).filing seqs := by
  have hfilter {Row : Type} (seq : Row → UInt32) (l : List Row) {s : UInt32} (hs : s ∈ seqs) :
      l.filter (seq · = s) = (l.filter (seq · ∈ seqs)).filter (seq · = s) := by
    rw [List.filter_filter]
    refine List.filter_congr fun r _ => ?_
    by_cases hr : seq r = s
    · simp [hr, hs]
    · simp [hr]
  intro s hs
  simp only [transactions_filing, fees_filing]
  exact ⟨hfilter TransactionRow.seq rows.transactions hs, hfilter FeeRow.seq rows.fees hs⟩

namespace Filing

variable {out : Serialized}

/-- Batches with rows of their own, which agree with those of the run on the ledgers of the
    batch. -/
theorem ofLedgers_flatMap_eq_ok {rows : Rows} {batches : List (Rows × List LedgerRow)}
    (h : ∀ b ∈ batches, rows.filing.AgreeOn b.1.filing (b.2.map (·.seq))) :
    Serialized.ofLedgers rows (batches.flatMap (·.2)) = (out, .ok ()) ↔
      ∃ outs, List.Forall₂ (fun b s => Serialized.ofLedgers b.1 b.2 = (s, .ok ())) batches outs ∧
        out = outs.foldr (· ++ ·) {} := by
  induction batches generalizing out with
  | nil =>
    constructor
    · intro h
      exact ⟨[], .nil, (Prod.mk.inj h).1.symm⟩
    · intro h
      obtain ⟨outs, hnil, rfl⟩ := h
      cases hnil
      rfl
  | cons b rest ih =>
    obtain ⟨hb, hrest⟩ := List.forall_mem_cons.mp h
    rw [List.flatMap_cons, ← rows.serialize_filing, serialize_append_eq_ok, serialize_congr hb,
      b.1.serialize_filing, rows.serialize_filing]
    simp only [ih hrest]
    constructor
    · intro h
      obtain ⟨s, t, hs, ⟨outs, houts, rfl⟩, rfl⟩ := h
      exact ⟨s :: outs, .cons hs houts, rfl⟩
    · intro h
      obtain ⟨outs, houts, rfl⟩ := h
      cases houts with
      | cons hs houts => exact ⟨_, _, hs, ⟨_, houts, rfl⟩, rfl⟩

/-- A run of ledgers is made into documents ledger by ledger, whatever its transactions and fee
    charges are filed under. A run and another behind it succeed together exactly where both do,
    with the body of the one and then that of the other, the sums of their counts and what both
    leave out; the outcome, a failure too, depends on nothing that is filed under other sequences;
    and batches with rows of their own make the body of the whole run. -/
theorem serialize_parts (deployment : String) :
    (∀ (m : Filing) (before after : List LedgerRow) (out : Serialized),
      m.serialize (before ++ after) = (out, .ok ()) ↔
        ∃ s t, m.serialize before = (s, .ok ()) ∧ m.serialize after = (t, .ok ()) ∧
          out.documents = s.documents ++ t.documents ∧
          out.body deployment = s.body deployment ++ t.body deployment ∧
          out.stats = s.stats + t.stats ∧ out.unindexable = s.unindexable ++ t.unindexable) ∧
    (∀ (m m' : Filing) (ledgers : List LedgerRow), m.AgreeOn m' (ledgers.map (·.seq)) →
      m.serialize ledgers = m'.serialize ledgers) ∧
    ∀ (rows : Rows) (batches : List (Rows × List LedgerRow)) (out : Serialized),
      (∀ b ∈ batches, rows.filing.AgreeOn b.1.filing (b.2.map (·.seq))) →
      (rows.filing.serialize (batches.flatMap (·.2)) = (out, .ok ()) ↔
        ∃ outs, List.Forall₂ (fun b s => Serialized.ofLedgers b.1 b.2 = (s, .ok ())) batches outs ∧
          out.documents = outs.flatMap (·.documents) ∧
          out.body deployment = String.join (outs.map (·.body deployment)) ∧
          out.stats = outs.foldr (fun s sum => s.stats + sum) {} ∧
          out.unindexable = outs.flatMap (·.unindexable)) := by
  refine ⟨fun m before after out => ?_, fun m m' ledgers h => serialize_congr h,
    fun rows batches out hagree => ?_⟩
  · rw [serialize_append_eq_ok]
    constructor
    · intro h
      obtain ⟨s, t, hs, ht, rfl⟩ := h
      exact ⟨s, t, hs, ht, rfl, Serialized.body_append deployment s t, rfl, rfl⟩
    · intro h
      obtain ⟨s, t, hs, ht, hdocs, -, hstats, hleft⟩ := h
      refine ⟨s, t, hs, ht, ?_⟩
      cases out
      subst hdocs hstats hleft
      rfl
  · rw [rows.serialize_filing, ofLedgers_flatMap_eq_ok hagree]
    constructor
    · intro h
      obtain ⟨outs, houts, rfl⟩ := h
      have hfold := Serialized.foldr_append outs
      exact ⟨outs, houts, congrArg (·.documents) hfold,
        Serialized.body_foldr_append deployment outs, congrArg (·.stats) hfold,
        congrArg (·.unindexable) hfold⟩
    · intro h
      obtain ⟨outs, houts, hdocs, -, hstats, hleft⟩ := h
      refine ⟨outs, houts, ?_⟩
      rw [Serialized.foldr_append]
      cases out
      subst hdocs hstats hleft
      rfl

/-- Two ledgers, each in a batch of its own with only the rows of its sequence. -/
theorem serialize_parts_sample :
    ∃ out outs, sampleRows.filing.serialize (sampleCloses.map (·.ledger)) = (out, .ok ()) ∧
      List.Forall₂ (fun c s =>
        Serialized.ofLedgers (sampleRows.restrict [c.ledger.seq]) [c.ledger] = (s, .ok ()))
        sampleCloses outs ∧
      out.body "live" = String.join (outs.map (·.body "live")) := by
  obtain ⟨out, hout, -, -⟩ := Serialized.exists_ofLedgers_sample
  have hagree : ∀ b ∈ sampleCloses.map fun c => (sampleRows.restrict [c.ledger.seq], [c.ledger]),
      sampleRows.filing.AgreeOn b.1.filing (b.2.map (·.seq)) := by
    intro b hb
    obtain ⟨c, -, rfl⟩ := List.mem_map.mp hb
    exact sampleRows.agreeOn_restrict [c.ledger.seq]
  have hrun : sampleRows.filing.serialize ((sampleCloses.map fun c =>
      (sampleRows.restrict [c.ledger.seq], [c.ledger])).flatMap (·.2)) = (out, .ok ()) := by
    rw [List.flatMap_map, sampleRows.serialize_filing, ← hout, List.map_eq_flatMap]
  obtain ⟨outs, houts, -, hbody, -, -⟩ := ((serialize_parts "live").2.2 _ _ out hagree).mp hrun
  exact ⟨out, outs, (sampleRows.serialize_filing _).trans hout, List.forall₂_map_left_iff.mp houts,
    hbody⟩

end Filing

end LedgerSearch
