import Mathlib
import LedgerSearch.Proofs.Export.Batches
import LedgerSearch.Proofs.GapFill.Scan
import LedgerSearch.Proofs.Program.TraceRun

/-
  Exports of a range of ledgers. The batches cover the range and do not overlap, so that all of the
  source's ledgers in it are fetched, once each and in order, and each has one fate
  (`Fleet.exportRange_accounts`).
-/

namespace LedgerSearch

open Program GapFiller

/-! ## Pieces -/

section

variable {step lo hi : Nat}

theorem mem_pieces {p : Nat × Nat} (h : p ∈ pieces step lo hi) :
    lo ≤ p.1 ∧ p.1 < p.2 ∧ p.2 ≤ hi := by
  fun_induction pieces step lo hi with
  | case1 lo hlt mid ih =>
    rcases List.mem_cons.mp h with rfl | h
    · exact ⟨Nat.le_refl _, by omega, Nat.min_le_right _ _⟩
    · obtain ⟨hlo, hp⟩ := ih h
      exact ⟨by omega, hp⟩
  | case2 => exact nomatch h

theorem ascending_pieces : (pieces step lo hi).Pairwise fun p q => p.2 ≤ q.1 := by
  fun_induction pieces step lo hi with
  | case1 lo hlt mid ih => exact List.pairwise_cons.mpr ⟨fun q hq => (mem_pieces hq).1, ih⟩
  | case2 => exact .nil

theorem length_pieces : (pieces step lo hi).length = (hi - lo) ⌈/⌉ max step 1 := by
  have hwidth : 0 < max step 1 := by omega
  fun_induction pieces step lo hi with
  | case1 lo hlt mid ih =>
    rw [List.length_cons, ih, Nat.ceilDiv_eq_add_pred_div, Nat.ceilDiv_eq_add_pred_div,
      ← Nat.add_div_right _ hwidth]
    by_cases hlast : lo + max step 1 ≤ hi
    · have hmid : mid = lo + max step 1 := Nat.min_eq_left hlast
      congr 1
      omega
    · -- the last piece counts as a whole one
      have hmid : mid = hi := Nat.min_eq_right (by omega)
      rw [Nat.div_eq_of_lt_le (k := 1) (by omega) (by omega),
        Nat.div_eq_of_lt_le (k := 1) (by omega) (by omega)]
  | case2 lo hge =>
    rw [Nat.sub_eq_zero_of_le (Nat.not_lt.mp hge), zero_ceilDiv]
    rfl

theorem held_iff_missing_compl {H : Set UInt32} {xs : List UInt32} :
    Held H lo hi xs ↔ Missing (Hᶜ) lo hi xs := by
  constructor
  · intro h
    exact ⟨h.ascending, by simpa using h.mem⟩
  · intro h
    exact ⟨h.ascending, by simpa using h.mem⟩

/-- What is held of all pieces is what is held of the whole. -/
theorem held_flatten {H : Set UInt32} {xss : List (List UInt32)} (hle : lo ≤ hi)
    (h : List.Forall₂ (fun p xs => Held H p.1 p.2 xs) (pieces step lo hi) xss) :
    Held H lo hi xss.flatten := by
  fun_induction pieces step lo hi generalizing xss with
  | @case1 lo hlt mid ih =>
    cases h with
    | @cons _ xs _ xss hfirst hrest =>
      have hlo : lo ≤ mid := by omega
      have hhi : mid ≤ hi := Nat.min_le_right _ _
      rw [held_iff_missing_compl] at hfirst ⊢
      exact hfirst.append (held_iff_missing_compl.mp (ih hhi hrest)) hlo hhi
  | case2 lo hge =>
    cases h
    refine ⟨.nil, fun x => ⟨(fun hx => nomatch hx), fun hx => ?_⟩⟩
    omega

end

/-! ## The batches of a range -/

section

variable {start count batch : UInt32}

theorem length_rangeBatches :
    (rangeBatches start count batch).length = count.toNat ⌈/⌉ max batch.toNat 1 := by
  rw [rangeBatches, List.length_map, length_pieces, Nat.add_sub_cancel_left]

theorem nodup_rangeBatches (hfits : start.toNat + count.toNat ≤ UInt32.size) :
    (rangeBatches start count batch).Nodup := by
  refine List.pairwise_map.mpr (ascending_pieces.imp_of_mem ?_)
  intro p q hp hq hle heq
  obtain ⟨-, hlt, -⟩ := mem_pieces hp
  obtain ⟨-, hlt', hhi⟩ := mem_pieces hq
  have hfirst : UInt32.ofNat p.1 = UInt32.ofNat q.1 := (Selection.range.inj heq).1
  have hnat := congrArg UInt32.toNat hfirst
  rw [UInt32.toNat_ofNat_of_lt' (by omega), UInt32.toNat_ofNat_of_lt' (by omega)] at hnat
  omega

end

/-- The source returns its ledgers `[start, start + count)`, ascending. -/
def ReturnsRanges (H : Set UInt32) (es : List (Event (Site BulkBody))) : Prop :=
  ∀ (start count : UInt32) (rows : List LedgerRow),
    ⟨.ledgersInRange start count, .ok rows⟩ ∈ questions es →
      Held H start.toNat (start.toNat + count.toNat) (rows.map (·.seq))

namespace ExportedBy

variable {e : Exporter} {start count batch : UInt32} {es : List (Event (Site BulkBody))}
  {bs : List BatchRun} {H : Set UInt32}

theorem held_of_range (h : ExportedBy e (rangeBatches start count batch) es bs)
    (hsource : ReturnsRanges H es) {b : BatchRun} (hb : b ∈ bs) {s n : UInt32}
    (hrange : b.selection = .range s n) : Held H s.toNat (s.toNat + n.toNat) b.report.fetched := by
  obtain ⟨rows, hq, hfetched⟩ := (h.batched b hb).exists_answered
  rw [hrange] at hq
  rw [hfetched]
  exact hsource s n rows (h.mem_questions.mpr ⟨b, hb, hq⟩)

/-- Each batch fetches what the source has of its piece. -/
theorem forall₂_held (h : ExportedBy e (rangeBatches start count batch) es bs)
    (hfits : start.toNat + count.toNat ≤ UInt32.size) (hsource : ReturnsRanges H es) :
    List.Forall₂ (fun p xs => Held H p.1 p.2 xs)
      (pieces batch.toNat start.toNat (start.toNat + count.toNat))
      (bs.map (·.report.fetched)) := by
  have hselections : List.Forall₂ (· = ·) (rangeBatches start count batch)
      (bs.map (·.selection)) := by
    rw [h.selections]
    exact List.forall₂_refl _
  rw [rangeBatches, List.forall₂_map_left_iff, List.forall₂_map_right_iff] at hselections
  rw [List.forall₂_map_right_iff]
  have hbatches := (List.forall₂_and_left bs _).mpr
    ⟨fun b (hb : b ∈ bs) => hb, hselections.flip⟩
  refine ((List.forall₂_and_left _ bs).mpr ⟨fun p hp => mem_pieces hp, hbatches.flip⟩).imp ?_
  rintro p b ⟨⟨hlo, hlt, hhi⟩, hb, hrange⟩
  have hcount : count.toNat < UInt32.size := count.toNat_lt
  have hheld := h.held_of_range hsource hb hrange.symm
  rw [UInt32.toNat_ofNat_of_lt' (by omega), UInt32.toNat_ofNat_of_lt' (by omega),
    Nat.add_sub_cancel' (Nat.le_of_lt hlt)] at hheld
  exact hheld

theorem held_fetched (h : ExportedBy e (rangeBatches start count batch) es bs)
    (hfits : start.toNat + count.toNat ≤ UInt32.size) (hsource : ReturnsRanges H es) :
    Held H start.toNat (start.toNat + count.toNat) (BatchRun.out bs).fetched := by
  rw [BatchRun.out, ExportReport.fetched_ofBatches, List.flatMap_map, List.flatMap_def]
  exact held_flatten (Nat.le_add_right _ _) (h.forall₂_held hfits hsource)

end ExportedBy

/-! ## The whole export -/

namespace Fleet

/-- An export of a range of 32-bit sequences, on any number of workers and whatever its requests are
    answered: it fetches all that the source has of the range, once and in order, in batches of that
    size, counts it, and gives each ledger one fate. -/
theorem exportRange_accounts {e : Exporter} {start count batch : UInt32} {H : Set UInt32}
    {es : List (Event (Site BulkBody))} {report : ExportReport}
    (hfits : start.toNat + count.toNat ≤ UInt32.size)
    (hrun : Fleet.Path e (exportRange start count batch) es (.done report))
    (hsource : ReturnsRanges H es) :
    report.batches = count.toNat ⌈/⌉ max batch.toNat 1 ∧
    report.fetched.Pairwise (· < ·) ∧
    (∀ seq, seq ∈ report.fetched ↔
      seq ∈ H ∧ start.toNat ≤ seq.toNat ∧ seq.toNat < start.toNat + count.toNat) ∧
    report.fetched.length = report.stats.ledgers + report.unindexable.length ∧
    ∀ seq ∈ report.fetched, ∃! f, ExportFate.Of e es report seq f := by
  obtain ⟨bs, hbs, rfl⟩ := exists_exportedBy hrun
  have hfetched := hbs.held_fetched hfits hsource
  have hn : (BatchRun.out bs).fetched.Nodup := hfetched.ascending.imp fun hlt => UInt32.ne_of_lt hlt
  refine ⟨?_, hfetched.ascending, hfetched.mem, ?_, fun seq hseq => ?_⟩
  · rw [BatchRun.out, ExportReport.batches_ofBatches, List.length_map, ← length_rangeBatches,
      ← hbs.selections, List.length_map]
  · rw [hbs.length_fetched, Nat.add_comm]
  · obtain ⟨f, hf⟩ := hbs.exists_fate hseq
    exact ⟨f, hf, fun f' hf' => hbs.fate_unique hn (nodup_rangeBatches hfits) hf' hf⟩

/-- The two sample ledgers in one batch. -/
theorem exportRange_accounts_sample :
    ∃ es report, Fleet.Path ⟨"live", ⟨0, 0⟩⟩ (exportRange 6 2 50) es (.done report) ∧
      report.batches = 1 ∧ report.fetched = [6, 7] ∧
      report.fetched.length = report.stats.ledgers + report.unindexable.length ∧
      ∀ seq ∈ report.fetched, ∃! f, ExportFate.Of ⟨"live", ⟨0, 0⟩⟩ es report seq f := by
  obtain ⟨out, hout, hdocs, -⟩ := Serialized.exists_ofLedgers_sample
  obtain ⟨es, hbatch, hq, -, -⟩ := Exporter.exists_path_selection (e := ⟨"live", ⟨0, 0⟩⟩) rfl
    (.range 6 2) (by decide +kernel) hout hdocs (.ok {})
  have hbatches : rangeBatches 6 2 50 = [.range 6 2] := by simp [rangeBatches, pieces]
  have hrun := exists_path_exportAll hbatch
  rw [← hbatches] at hrun
  have hsource : ReturnsRanges {6, 7} es := by
    intro start count rows hmem
    rw [hq] at hmem
    simp only [List.mem_cons, List.not_mem_nil, or_false] at hmem
    rcases hmem with h | h | h
    · cases h
      rw [seqs_sampleCloses]
      refine ⟨by decide, fun x => ?_⟩
      simp only [List.mem_cons, List.not_mem_nil, or_false, Set.mem_insert_iff,
        Set.mem_singleton_iff]
      constructor
      · rintro (rfl | rfl) <;> decide
      · exact fun hx => hx.1
    · exact nomatch h
    · exact nomatch h
  obtain ⟨hcount, -, -, haccount, hfates⟩ := exportRange_accounts (by decide) hrun hsource
  exact ⟨es, _, hrun, hcount, seqs_sampleCloses, haccount, hfates⟩

end Fleet

end LedgerSearch
