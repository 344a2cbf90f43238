import Mathlib
import LedgerSearch.GapFill
import LedgerSearch.Proofs.Export.Batches

/-
  The batches of a gap fill. No sequence is in two batches, and each batch reports what it found of
  its own only.
-/

namespace LedgerSearch

open Program

/-! ## Groups -/

theorem flatten_groupsOf {α : Type} (size : Nat) (items : List α) :
    (groupsOf size items).flatten = items := by
  fun_induction groupsOf size items with
  | case1 => rfl
  | case2 a rest ih => rw [List.flatten_cons, ih, List.cons_append, List.take_append_drop]

theorem ne_nil_of_mem_groupsOf {α : Type} {size : Nat} {items group : List α}
    (h : group ∈ groupsOf size items) : group ≠ [] := by
  fun_induction groupsOf size items with
  | case1 => exact nomatch h
  | case2 a rest ih =>
    rcases List.mem_cons.mp h with rfl | h
    · exact List.cons_ne_nil _ _
    · exact ih h

/-! ## The batches of a fill -/

/-- The source returns requested ledgers only, and none twice. -/
def ReturnsRequested (es : List (Event (Site BulkBody))) : Prop :=
  ∀ (seqs : List UInt32) (rows : List LedgerRow),
    ⟨.ledgersBySeq seqs, .ok rows⟩ ∈ questions es →
      (∀ row ∈ rows, row.seq ∈ seqs) ∧ (rows.map (·.seq)).Nodup

/-- The sequences a batch was given. -/
def BatchRun.seqs (b : BatchRun) : List UInt32 :=
  match b.selection with
  | .seqs ss => ss
  | .range _ _ => []

/-- The batches that the missing sequences were cut into, and the trace they have left together. -/
structure FilledBy (e : Exporter) (missing : List UInt32) (es : List (Event (Site BulkBody)))
    (bs : List BatchRun) : Prop where
  exported : ExportedBy e (bs.map fun b => .seqs b.seqs) es bs
  seqs : bs.flatMap (·.seqs) = missing
  nonempty : ∀ b ∈ bs, b.seqs ≠ []

theorem exists_filledBy {e : Exporter} {batch : UInt32} {missing : List UInt32}
    {out : ExportReport} {es : List (Event (Site BulkBody))}
    (h : Fleet.Path e (Fleet.exportAll (seqBatches batch missing)) es (.done out)) :
    ∃ bs, FilledBy e missing es bs ∧ out = BatchRun.out bs := by
  obtain ⟨bs, hbs, rfl⟩ := exists_exportedBy h
  have hseqs : bs.map (·.seqs) = groupsOf batch.toNat missing := by
    have hmap : (bs.map (·.selection)).map
        (fun s : Selection => match s with | .seqs ss => ss | .range _ _ => []) =
          groupsOf batch.toNat missing := by
      rw [hbs.selections, seqBatches, List.map_map]
      exact List.map_id _
    rw [← hmap, List.map_map]
    rfl
  have hselections : (bs.map fun b => Selection.seqs b.seqs) = seqBatches batch missing := by
    rw [seqBatches, ← hseqs, List.map_map]
    rfl
  refine ⟨bs, ⟨hselections ▸ hbs, ?_, fun b hb => ?_⟩, rfl⟩
  · rw [List.flatMap_def, hseqs, flatten_groupsOf]
  · have hmem : b.seqs ∈ groupsOf batch.toNat missing := hseqs ▸ List.mem_map_of_mem hb
    exact ne_nil_of_mem_groupsOf hmem

namespace FilledBy

open BatchRun

variable {e : Exporter} {missing : List UInt32} {es : List (Event (Site BulkBody))}
  {bs : List BatchRun}

theorem selection_eq (h : FilledBy e missing es bs) {b : BatchRun} (hb : b ∈ bs) :
    b.selection = .seqs b.seqs := List.map_inj_left.mp h.exported.selections b hb

theorem batched (h : FilledBy e missing es bs) {b : BatchRun} (hb : b ∈ bs) :
    Exporter.Batched e (.seqs b.seqs) b.events b.report := by
  have hbatched := h.exported.batched b hb
  rwa [h.selection_eq hb] at hbatched

/-- The missing sequences are those of the batches. -/
theorem mem_missing (h : FilledBy e missing es bs) {seq : UInt32} :
    seq ∈ missing ↔ ∃ b ∈ bs, seq ∈ b.seqs := by
  rw [← h.seqs]
  exact List.mem_flatMap

/-- No sequence is in two batches. -/
theorem batch_unique (h : FilledBy e missing es bs) (hn : missing.Nodup) {b b' : BatchRun}
    (hb : b ∈ bs) (hb' : b' ∈ bs) {seq : UInt32} (hs : seq ∈ b.seqs) (hs' : seq ∈ b'.seqs) :
    b = b' := by
  rw [← h.seqs, List.nodup_flatMap] at hn
  by_contra hne
  have hsymm : Std.Symm (Function.onFun List.Disjoint BatchRun.seqs) := ⟨fun _ _ hd => hd.symm⟩
  exact hn.2.forall hb hb' hne hs hs'

theorem nodup_selections (h : FilledBy e missing es bs) (hn : missing.Nodup) :
    (bs.map fun b => Selection.seqs b.seqs).Nodup := by
  rw [← h.seqs, List.nodup_flatMap] at hn
  refine List.pairwise_map.mpr (hn.2.imp_of_mem fun {b b'} hb _ hd heq => ?_)
  obtain ⟨seq, hseq⟩ := List.exists_mem_of_ne_nil _ (h.nonempty b hb)
  have hseq' : seq ∈ b'.seqs := Selection.seqs.inj heq ▸ hseq
  exact hd hseq hseq'

/-- A batch fetches what it was given only. -/
theorem fetched_subset (h : FilledBy e missing es bs)
    (hret : ∀ (seqs : List UInt32) (rows : List LedgerRow),
      ⟨.ledgersBySeq seqs, .ok rows⟩ ∈ questions es → ∀ row ∈ rows, row.seq ∈ seqs)
    {b : BatchRun} (hb : b ∈ bs) : b.report.fetched ⊆ b.seqs := by
  obtain ⟨rows, hq, hf⟩ := (h.batched hb).exists_answered
  rw [hf]
  intro seq hseq
  obtain ⟨row, hrow, rfl⟩ := List.mem_map.mp hseq
  exact hret _ rows (h.exported.mem_questions.mpr ⟨b, hb, hq⟩) row hrow

theorem nodup_fetched (h : FilledBy e missing es bs) (hn : missing.Nodup)
    (hret : ReturnsRequested es) : (out bs).fetched.Nodup := by
  have hsub : ∀ {b}, b ∈ bs → b.report.fetched ⊆ b.seqs := fun hb =>
    h.fetched_subset (fun seqs rows hq => (hret seqs rows hq).1) hb
  rw [out, ExportReport.fetched_ofBatches, List.flatMap_map, List.nodup_flatMap]
  constructor
  · intro b hb
    obtain ⟨rows, hq, hf⟩ := (h.batched hb).exists_answered
    rw [hf]
    exact (hret _ rows (h.exported.mem_questions.mpr ⟨b, hb, hq⟩)).2
  · rw [← h.seqs, List.nodup_flatMap] at hn
    refine hn.2.imp_of_mem fun {b b'} hb hb' hd seq hs hs' => ?_
    exact hd (hsub hb hs) (hsub hb' hs')

end FilledBy

end LedgerSearch
