import Mathlib
import LedgerSearch.Proofs.Delivery.BatchTrace
import LedgerSearch.Proofs.Serialize.BatchContents

/-
  Batches that are exported together: the sums over them, the trace they leave, and what becomes of
  the ledgers they fetch. Where no ledger is fetched twice, each has exactly one of three fates
  (`ExportedBy.exists_fate`, `ExportedBy.fate_unique`).
-/

namespace LedgerSearch

open Program

/-! ## Sums over batches -/

namespace ExportReport

theorem foldl_absorb (bs : List (Selection × BatchReport)) (r : ExportReport) :
    let t := bs.foldl (fun r (s, b) => r.absorb s b) r
    t.batches = r.batches + bs.length ∧
    t.fetched = r.fetched ++ bs.flatMap (·.2.fetched) ∧
    t.unindexable = r.unindexable ++ bs.flatMap (·.2.unindexable) ∧
    t.stats.ledgers = r.stats.ledgers + (bs.map (·.2.stats.ledgers)).sum ∧
    ∀ s, s ∈ t.skipped ↔ s ∈ r.skipped ∨ ∃ b ∈ bs, b.1 = s ∧ b.2.written = false := by
  induction bs generalizing r with
  | nil => simp
  | cons b rest ih =>
    obtain ⟨hn, hf, hu, hl, hs⟩ := ih (r.absorb b.1 b.2)
    refine ⟨?_, ?_, ?_, ?_, fun s => ?_⟩
    · rw [List.foldl_cons, hn, List.length_cons]
      show r.batches + 1 + rest.length = _
      omega
    · rw [List.foldl_cons, hf, List.flatMap_cons, ← List.append_assoc]
      rfl
    · rw [List.foldl_cons, hu, List.flatMap_cons, ← List.append_assoc]
      rfl
    · rw [List.foldl_cons, hl, List.map_cons, List.sum_cons, ← Nat.add_assoc]
      rfl
    · have hskip : (r.absorb b.1 b.2).skipped =
          if b.2.written then r.skipped else r.skipped ++ [b.1] := rfl
      rw [List.foldl_cons, hs, hskip]
      cases hw : b.2.written with
      | true => simp [hw]
      | false => simp [hw, or_assoc, eq_comm (a := s)]

theorem batches_ofBatches (bs : List (Selection × BatchReport)) :
    (ofBatches bs).batches = bs.length := (foldl_absorb bs {}).1.trans (Nat.zero_add _)

theorem fetched_ofBatches (bs : List (Selection × BatchReport)) :
    (ofBatches bs).fetched = bs.flatMap (·.2.fetched) := (foldl_absorb bs {}).2.1

theorem unindexable_ofBatches (bs : List (Selection × BatchReport)) :
    (ofBatches bs).unindexable = bs.flatMap (·.2.unindexable) := (foldl_absorb bs {}).2.2.1

theorem ledgers_ofBatches (bs : List (Selection × BatchReport)) :
    (ofBatches bs).stats.ledgers = (bs.map (·.2.stats.ledgers)).sum :=
  (foldl_absorb bs {}).2.2.2.1.trans (Nat.zero_add _)

theorem mem_skipped_ofBatches {bs : List (Selection × BatchReport)} {s : Selection} :
    s ∈ (ofBatches bs).skipped ↔ ∃ b ∈ bs, b.1 = s ∧ b.2.written = false := by
  have h := (foldl_absorb bs {}).2.2.2.2 s
  rw [ofBatches, h]
  simp

end ExportReport

/-! ## One batch -/

namespace Selection

theorem answered_inj {s s' : Selection} {rows rows' : List LedgerRow}
    (h : s.answered rows = s'.answered rows') : s = s' ∧ rows = rows' := by
  cases s <;> cases s' <;> cases h <;> exact ⟨rfl, rfl⟩

theorem answered_ne_transactionsOf {s : Selection} {rows : List LedgerRow} {ss : List UInt32}
    {txs : Except Error (List TransactionRow)} :
    s.answered rows ≠ ⟨.transactionsOf ss, txs⟩ := by
  cases s <;> exact nofun

theorem answered_ne_feesOf {s : Selection} {rows : List LedgerRow} {ss : List UInt32}
    {fees : Except Error (List FeeRow)} : s.answered rows ≠ ⟨.feesOf ss, fees⟩ := by
  cases s <;> exact nofun

end Selection

namespace Exporter.Batched

open Selection

variable {e : Exporter} {s : Selection} {es : List (Event (Site BulkBody))}
  {report : BatchReport}

theorem length_fetched (h : Batched e s es report) :
    report.fetched.length = report.unindexable.length + report.stats.ledgers := by
  cases h with
  | absent => rfl
  | fetched _ _ hout =>
    rw [List.length_map]
    exact Serialized.length_ofLedgers hout

/-- The batch has put one question about ledgers. -/
theorem eq_of_answered (h : Batched e s es report) {s' : Selection} {rows : List LedgerRow}
    (hq : s'.answered rows ∈ questions es) : s' = s ∧ report.fetched = rows.map (·.seq) := by
  cases h with
  | absent hquestions _ =>
    rw [hquestions, List.mem_singleton] at hq
    obtain ⟨rfl, rfl⟩ := answered_inj hq
    exact ⟨rfl, rfl⟩
  | fetched _ hquestions _ _ _ =>
    rw [hquestions] at hq
    simp only [List.mem_cons, List.not_mem_nil, or_false] at hq
    rcases hq with hq | hq | hq
    · obtain ⟨rfl, rfl⟩ := answered_inj hq
      exact ⟨rfl, rfl⟩
    · exact absurd hq answered_ne_transactionsOf
    · exact absurd hq answered_ne_feesOf

theorem fetched_of_transactionsOf (h : Batched e s es report) {ss : List UInt32}
    {txs : List TransactionRow} (hq : ⟨.transactionsOf ss, .ok txs⟩ ∈ questions es) :
    report.fetched = ss := by
  cases h with
  | absent hquestions _ =>
    rw [hquestions, List.mem_singleton] at hq
    exact absurd hq.symm answered_ne_transactionsOf
  | fetched _ hquestions _ _ _ =>
    rw [hquestions] at hq
    simp only [List.mem_cons, List.not_mem_nil, or_false] at hq
    rcases hq with hq | hq | hq
    · exact absurd hq.symm answered_ne_transactionsOf
    · cases hq
      rfl
    · cases hq

theorem fetched_of_feesOf (h : Batched e s es report) {ss : List UInt32}
    {fees : List FeeRow} (hq : ⟨.feesOf ss, .ok fees⟩ ∈ questions es) : report.fetched = ss := by
  cases h with
  | absent hquestions _ =>
    rw [hquestions, List.mem_singleton] at hq
    exact absurd hq.symm answered_ne_feesOf
  | fetched _ hquestions _ _ _ =>
    rw [hquestions] at hq
    simp only [List.mem_cons, List.not_mem_nil, or_false] at hq
    rcases hq with hq | hq | hq
    · exact absurd hq.symm answered_ne_feesOf
    · cases hq
    · cases hq
      rfl

theorem exists_answered (h : Batched e s es report) :
    ∃ rows : List LedgerRow, s.answered rows ∈ questions es ∧
      report.fetched = rows.map (·.seq) := by
  cases h with
  | absent hq _ => exact ⟨[], by rw [hq]; exact List.mem_singleton.mpr rfl, rfl⟩
  | fetched _ hq _ _ _ => exact ⟨_, by rw [hq]; exact List.mem_cons_self, rfl⟩

theorem bulks_eq_nil (h : Batched e s es report) (hne : report.fetched = []) :
    bulks es = [] := by
  cases h with
  | absent _ hb => exact hb
  | fetched hrows => exact absurd (List.map_eq_nil_iff.mp hne) hrows

/-- The answers a batch got and what it has made of them. -/
structure Data (e : Exporter) (es : List (Event (Site BulkBody))) (report : BatchReport)
    (rows : List LedgerRow) (txs : List TransactionRow) (fees : List FeeRow) (out : Serialized) :
    Prop where
  transactionsOf : ⟨.transactionsOf (rows.map (·.seq)), .ok txs⟩ ∈ questions es
  feesOf : ⟨.feesOf (rows.map (·.seq)), .ok fees⟩ ∈ questions es
  serialized : Serialized.ofLedgers ⟨txs, fees⟩ rows = (out, .ok ())
  unindexable : report.unindexable = out.unindexable
  body : ∀ b ∈ bulks es, b.1 = BulkBody.ofDocuments e.deployment out.documents
  written : report.written = true ↔ out.documents = [] ∨ ∃ b ∈ bulks es, accepted b.2 = true

theorem exists_data (h : Batched e s es report) (hne : report.fetched ≠ []) :
    ∃ rows txs fees out, s.answered rows ∈ questions es ∧ Data e es report rows txs fees out := by
  cases h with
  | absent => exact absurd rfl hne
  | fetched _ hq hout hb hw =>
    refine ⟨_, _, _, _, ?_, ⟨?_, ?_, hout, rfl, hb, hw⟩⟩ <;> simp [hq]

/-- The answers are the only ones of the batch. -/
theorem data (h : Batched e s es report) {s' : Selection} {rows : List LedgerRow}
    {txs : List TransactionRow} {fees : List FeeRow}
    (hl : s'.answered rows ∈ questions es)
    (ht : ⟨.transactionsOf (rows.map (·.seq)), .ok txs⟩ ∈ questions es)
    (hf : ⟨.feesOf (rows.map (·.seq)), .ok fees⟩ ∈ questions es) :
    ∃ out, Data e es report rows txs fees out := by
  cases h with
  | absent hq _ =>
    rw [hq, List.mem_singleton] at ht
    exact absurd ht.symm answered_ne_transactionsOf
  | fetched _ hq hout hb hw =>
    have htxs := ht
    have hfees := hf
    rw [hq] at hl htxs hfees
    simp only [List.mem_cons, List.not_mem_nil, or_false] at hl htxs hfees
    rcases hl with hl | hl | hl
    · obtain ⟨-, rfl⟩ := answered_inj hl
      rcases htxs with htxs | htxs | htxs
      · exact absurd htxs.symm answered_ne_transactionsOf
      · cases htxs
        rcases hfees with hfees | hfees | hfees
        · exact absurd hfees.symm answered_ne_feesOf
        · cases hfees
        · cases hfees
          exact ⟨_, ht, hf, hout, rfl, hb, hw⟩
      · cases htxs
    · exact absurd hl answered_ne_transactionsOf
    · exact absurd hl answered_ne_feesOf

theorem unindexable_subset (h : Batched e s es report) :
    report.unindexable ⊆ report.fetched := by
  cases h with
  | absent => exact List.nil_subset _
  | fetched _ _ hout =>
    intro seq hseq
    obtain ⟨row, hrow, rfl, -⟩ := (Serialized.mem_unindexable hout).mp hseq
    exact List.mem_map_of_mem hrow

end Exporter.Batched

/-! ## Many batches -/

/-- A batch that has come to an end. -/
structure BatchRun where
  selection : Selection
  events : List (Event (Site BulkBody))
  report : BatchReport

/-- What is reported of batches. -/
def BatchRun.out (bs : List BatchRun) : ExportReport :=
  .ofBatches (bs.map fun b => (b.selection, b.report))

/-- The batches of the selections, and the trace they have left together. -/
structure ExportedBy (e : Exporter) (ss : List Selection) (es : List (Event (Site BulkBody)))
    (bs : List BatchRun) : Prop where
  selections : bs.map (·.selection) = ss
  batched : ∀ b ∈ bs, Exporter.Batched e b.selection b.events b.report
  events : (bs.flatMap (·.events)).Perm es

theorem exists_batchRuns {e : Exporter} {ss : List Selection}
    {ts : List (List (Event (Site BulkBody)) × BatchReport)}
    (h : List.Forall₂ (fun p t => p.Path t.1 (.done t.2)) (ss.map e.batch) ts) :
    ∃ bs : List BatchRun, bs.map (·.selection) = ss ∧
      bs.map (fun b => (b.events, b.report)) = ts ∧
      ∀ b ∈ bs, Exporter.Batched e b.selection b.events b.report := by
  induction ss generalizing ts with
  | nil =>
    cases h
    exact ⟨[], rfl, rfl, fun _ hb => nomatch hb⟩
  | cons s rest ih =>
    rw [List.map_cons] at h
    cases h with
    | @cons _ t _ ts hp hts =>
      obtain ⟨bs, rfl, rfl, hbs⟩ := ih hts
      refine ⟨⟨s, t.1, t.2⟩ :: bs, rfl, rfl, fun b hb => ?_⟩
      rcases List.mem_cons.mp hb with rfl | hb
      · exact Exporter.batched hp
      · exact hbs b hb

theorem exists_exportedBy {e : Exporter} {ss : List Selection} {out : ExportReport}
    {es : List (Event (Site BulkBody))}
    (h : Fleet.Path e (Fleet.exportAll ss) es (.done out)) :
    ∃ bs, ExportedBy e ss es bs ∧ out = BatchRun.out bs := by
  obtain ⟨reports, hf, rfl⟩ := Fleet.path_exportAll h
  obtain ⟨ts, rfl, hts, hperm⟩ := hf.paths
  obtain ⟨bs, rfl, rfl, hbs⟩ := exists_batchRuns hts
  refine ⟨bs, ⟨rfl, hbs, ?_⟩, ?_⟩
  · rwa [List.flatMap_map] at hperm
  · rw [List.map_map, List.zip_map']
    rfl

/-- The ledger, with the rows the source returned for it in that batch, has the documents `ds`. -/
def SerializedIn (es : List (Event (Site BulkBody))) (s : Selection) (seq : UInt32)
    (ds : List Document) : Prop :=
  ∃ (rows : List LedgerRow) (txs : List TransactionRow) (fees : List FeeRow),
    s.answered rows ∈ questions es ∧
    ⟨.transactionsOf (rows.map (·.seq)), .ok txs⟩ ∈ questions es ∧
    ⟨.feesOf (rows.map (·.seq)), .ok fees⟩ ∈ questions es ∧
    ∃ row ∈ rows, row.seq = seq ∧ Rows.Serializes ⟨txs, fees⟩ row ds

/-- What a ledger that was fetched can come to. -/
inductive ExportFate where
  | unindexable
  | skipped
  | written
deriving DecidableEq

/-- How a trace and a report show the fate of a ledger. -/
def ExportFate.Of (e : Exporter) (es : List (Event (Site BulkBody))) (r : ExportReport)
    (seq : UInt32) : ExportFate → Prop
  | .unindexable => seq ∈ r.unindexable
  | .skipped => ∃ s ds, SerializedIn es s seq ds ∧ s ∈ r.skipped
  | .written => ∃ s ds, SerializedIn es s seq ds ∧ ∃ b ∈ bulks es, accepted b.2 = true ∧
      ∀ d ∈ ds, BulkEntry.ofDocument e.deployment d ∈ b.1

namespace BatchRun

variable {bs : List BatchRun}

theorem mem_fetched {seq : UInt32} : seq ∈ (out bs).fetched ↔ ∃ b ∈ bs, seq ∈ b.report.fetched := by
  rw [out, ExportReport.fetched_ofBatches, List.flatMap_map, List.mem_flatMap]

theorem mem_unindexable {seq : UInt32} :
    seq ∈ (out bs).unindexable ↔ ∃ b ∈ bs, seq ∈ b.report.unindexable := by
  rw [out, ExportReport.unindexable_ofBatches, List.flatMap_map, List.mem_flatMap]

theorem mem_skipped {s : Selection} :
    s ∈ (out bs).skipped ↔ ∃ b ∈ bs, b.selection = s ∧ b.report.written = false := by
  rw [out, ExportReport.mem_skipped_ofBatches]
  simp

theorem nodup_fetched (hn : (out bs).fetched.Nodup) {b : BatchRun} (hb : b ∈ bs) :
    b.report.fetched.Nodup := by
  rw [out, ExportReport.fetched_ofBatches, List.flatMap_map, List.nodup_flatMap] at hn
  exact hn.1 b hb

/-- Where no ledger is fetched twice, none is in two batches. -/
theorem eq_of_mem_fetched (hn : (out bs).fetched.Nodup) {b b' : BatchRun} (hb : b ∈ bs)
    (hb' : b' ∈ bs) {seq : UInt32} (hs : seq ∈ b.report.fetched) (hs' : seq ∈ b'.report.fetched) :
    b = b' := by
  rw [out, ExportReport.fetched_ofBatches, List.flatMap_map, List.nodup_flatMap] at hn
  by_contra hne
  have hsymm : Std.Symm (Function.onFun List.Disjoint fun b : BatchRun => b.report.fetched) :=
    ⟨fun _ _ hd => hd.symm⟩
  exact hn.2.forall hb hb' hne hs hs'

end BatchRun

namespace ExportedBy

open BatchRun

variable {e : Exporter} {ss : List Selection} {es : List (Event (Site BulkBody))}
  {bs : List BatchRun} {seq : UInt32} {ds : List Document}

theorem mem_questions (h : ExportedBy e ss es bs)
    {q : Σ q : HistoryQuery, Except Error q.Reply} :
    q ∈ questions es ↔ ∃ b ∈ bs, q ∈ questions b.events := by
  rw [questions, ← (h.events.filterMap Event.history?).mem_iff, List.filterMap_flatMap,
    List.mem_flatMap]
  rfl

theorem mem_bulks (h : ExportedBy e ss es bs)
    {b : BulkBody × Except Error Search.BulkReply} :
    b ∈ bulks es ↔ ∃ r ∈ bs, b ∈ bulks r.events := by
  rw [bulks, ← (h.events.filterMap Event.bulk?).mem_iff, List.filterMap_flatMap, List.mem_flatMap]
  rfl

/-- Every ledger that was fetched is counted once. -/
theorem length_fetched (h : ExportedBy e ss es bs) :
    (out bs).fetched.length = (out bs).unindexable.length + (out bs).stats.ledgers := by
  rw [out, ExportReport.fetched_ofBatches, ExportReport.unindexable_ofBatches,
    ExportReport.ledgers_ofBatches, List.flatMap_map, List.flatMap_map, List.map_map,
    List.length_flatMap, List.length_flatMap, ← List.sum_map_add]
  exact congrArg List.sum (List.map_congr_left fun b hb => (h.batched b hb).length_fetched)

/-- A ledger with documents got them in the batch that fetched it. -/
theorem exists_of_serializedIn (h : ExportedBy e ss es bs) (hn : (out bs).fetched.Nodup)
    {s : Selection} (hs : SerializedIn es s seq ds) :
    ∃ b ∈ bs, b.selection = s ∧ seq ∈ b.report.fetched ∧ ∃ rows txs fees out,
      s.answered rows ∈ questions b.events ∧
      Exporter.Batched.Data e b.events b.report rows txs fees out ∧
      ∃ row ∈ rows, row.seq = seq ∧ Rows.Serializes ⟨txs, fees⟩ row ds := by
  obtain ⟨rows, txs, fees, hl, ht, hf, row, hrow, rfl, hser⟩ := hs
  obtain ⟨b, hb, hl⟩ := h.mem_questions.mp hl
  obtain ⟨b₁, hb₁, ht⟩ := h.mem_questions.mp ht
  obtain ⟨b₂, hb₂, hf⟩ := h.mem_questions.mp hf
  have hmem : row.seq ∈ rows.map (·.seq) := List.mem_map_of_mem hrow
  obtain ⟨rfl, hfetched⟩ := (h.batched b hb).eq_of_answered hl
  have hseq : row.seq ∈ b.report.fetched := hfetched ▸ hmem
  have hseq₁ : row.seq ∈ b₁.report.fetched :=
    (h.batched b₁ hb₁).fetched_of_transactionsOf ht ▸ hmem
  have hseq₂ : row.seq ∈ b₂.report.fetched := (h.batched b₂ hb₂).fetched_of_feesOf hf ▸ hmem
  obtain rfl := eq_of_mem_fetched hn hb hb₁ hseq hseq₁
  obtain rfl := eq_of_mem_fetched hn hb hb₂ hseq hseq₂
  obtain ⟨out, hdata⟩ := (h.batched b hb).data hl ht hf
  exact ⟨b, hb, rfl, hseq, rows, txs, fees, out, hl, hdata, row, hrow, rfl, hser⟩

theorem mem_fetched_of_serializedIn (h : ExportedBy e ss es bs) {s : Selection}
    (hs : SerializedIn es s seq ds) : seq ∈ (out bs).fetched := by
  obtain ⟨rows, txs, fees, hl, -, -, row, hrow, rfl, -⟩ := hs
  obtain ⟨b, hb, hl⟩ := h.mem_questions.mp hl
  refine mem_fetched.mpr ⟨b, hb, ?_⟩
  rw [((h.batched b hb).eq_of_answered hl).2]
  exact List.mem_map_of_mem hrow

theorem exists_of_mem_unindexable (h : ExportedBy e ss es bs)
    (hu : seq ∈ (out bs).unindexable) :
    ∃ b ∈ bs, seq ∈ b.report.unindexable ∧ seq ∈ b.report.fetched := by
  obtain ⟨b, hb, hu⟩ := mem_unindexable.mp hu
  exact ⟨b, hb, hu, (h.batched b hb).unindexable_subset hu⟩

/-- A ledger left out has no documents. -/
theorem not_serializedIn_of_unindexable (h : ExportedBy e ss es bs)
    (hn : (out bs).fetched.Nodup) (hu : seq ∈ (out bs).unindexable) {s : Selection} :
    ¬ SerializedIn es s seq ds := by
  intro hs
  obtain ⟨b, hb, rfl, hseq, rows, txs, fees, s, hl, hdata, row, hrow, rfl, hser⟩ :=
    h.exists_of_serializedIn hn hs
  obtain ⟨b', hb', hu, hseq'⟩ := h.exists_of_mem_unindexable hu
  obtain rfl := eq_of_mem_fetched hn hb hb' hseq hseq'
  have hnodup := nodup_fetched hn hb
  rw [((h.batched b hb).eq_of_answered hl).2] at hnodup
  rw [hdata.unindexable] at hu
  obtain ⟨row', hrow', hrowseq, hover⟩ := (Serialized.mem_unindexable hdata.serialized).mp hu
  obtain rfl := List.inj_on_of_nodup_map hnodup hrow' hrow hrowseq
  exact hser.not_overflows hover

/-- A document that was sent is one of a ledger that its batch has fetched. -/
theorem exists_of_sent (h : ExportedBy e ss es bs) {b : BulkBody × Except Error Search.BulkReply}
    (hb : b ∈ bulks es) {d : Document} (hd : .ofDocument e.deployment d ∈ b.1) :
    ∃ r ∈ bs, b ∈ bulks r.events ∧ d.token.ledger ∈ r.report.fetched := by
  obtain ⟨r, hr, hb⟩ := h.mem_bulks.mp hb
  have hbatched := h.batched r hr
  have hne : r.report.fetched ≠ [] := fun hnil => by
    rw [hbatched.bulks_eq_nil hnil] at hb
    exact nomatch hb
  obtain ⟨rows, txs, fees, s, hl, hdata⟩ := hbatched.exists_data hne
  refine ⟨r, hr, hb, ?_⟩
  rw [hdata.body b hb] at hd
  obtain ⟨d', hd', hentry⟩ := List.mem_map.mp hd
  have htext : d'.token.text = d.token.text := Option.some.inj (congrArg BulkEntry.id hentry)
  obtain ⟨row, hrow, ds, hser, hmem⟩ := Serialized.exists_of_mem_documents hdata.serialized hd'
  rw [(hbatched.eq_of_answered hl).2, ← Token.text_injective htext, hser.ledger_eq hmem]
  exact List.mem_map_of_mem hrow

/-- The batch of an accepted body that holds the documents of a ledger is one that fetched it. -/
theorem exists_of_accepted (h : ExportedBy e ss es bs) {rows : Rows} {row : LedgerRow}
    (hser : rows.Serializes row ds) {b : BulkBody × Except Error Search.BulkReply}
    (hb : b ∈ bulks es) (hok : accepted b.2 = true)
    (hds : ∀ d ∈ ds, BulkEntry.ofDocument e.deployment d ∈ b.1) :
    ∃ r ∈ bs, r.report.written = true ∧ row.seq ∈ r.report.fetched := by
  obtain ⟨doc, rest, rfl, -⟩ := hser.head
  obtain ⟨r, hr, hb, hfetched⟩ := h.exists_of_sent hb (hds _ List.mem_cons_self)
  rw [hser.ledger_eq List.mem_cons_self] at hfetched
  obtain ⟨rows', txs, fees, s, -, hdata⟩ :=
    (h.batched r hr).exists_data (List.ne_nil_of_mem hfetched)
  exact ⟨r, hr, hdata.written.mpr (.inr ⟨b, hb, hok⟩), hfetched⟩

/-! ## Fates -/

/-- Every ledger that was fetched has a fate. -/
theorem exists_fate (h : ExportedBy e ss es bs) (hseq : seq ∈ (out bs).fetched) :
    ∃ f, ExportFate.Of e es (out bs) seq f := by
  obtain ⟨b, hb, hfetched⟩ := mem_fetched.mp hseq
  have hbatched := h.batched b hb
  obtain ⟨rows, txs, fees, s, hl, hdata⟩ := hbatched.exists_data (List.ne_nil_of_mem hfetched)
  rw [(hbatched.eq_of_answered hl).2] at hfetched
  obtain ⟨row, hrow, rfl⟩ := List.mem_map.mp hfetched
  rcases Serialized.exists_serializes hdata.serialized hrow with hover | ⟨ds, hser, hsub⟩
  · refine ⟨.unindexable, mem_unindexable.mpr ⟨b, hb, ?_⟩⟩
    rw [hdata.unindexable]
    exact (Serialized.mem_unindexable hdata.serialized).mpr ⟨row, hrow, rfl, hover⟩
  have hs : SerializedIn es b.selection row.seq ds :=
    ⟨rows, txs, fees, h.mem_questions.mpr ⟨b, hb, hl⟩,
      h.mem_questions.mpr ⟨b, hb, hdata.transactionsOf⟩,
      h.mem_questions.mpr ⟨b, hb, hdata.feesOf⟩, row, hrow, rfl, hser⟩
  cases hw : b.report.written with
  | false => exact ⟨.skipped, _, ds, hs, mem_skipped.mpr ⟨b, hb, rfl, hw⟩⟩
  | true =>
    obtain ⟨doc, rest, rfl, -⟩ := hser.head
    rcases hdata.written.mp hw with hnil | ⟨q, hq, hok⟩
    · rw [hnil] at hsub
      exact nomatch hsub List.mem_cons_self
    · refine ⟨.written, _, _, hs, q, h.mem_bulks.mpr ⟨b, hb, hq⟩, hok, fun d hd => ?_⟩
      rw [hdata.body q hq]
      exact List.mem_map_of_mem (hsub hd)

/-- A batch that was skipped and one that was written are not the same. -/
theorem not_skipped_of_written (h : ExportedBy e ss es bs) (hn : (out bs).fetched.Nodup)
    (hss : ss.Nodup) (hs : ExportFate.Of e es (out bs) seq .skipped)
    (hw : ExportFate.Of e es (out bs) seq .written) : False := by
  obtain ⟨s, ds, hser, hskipped⟩ := hs
  obtain ⟨s', ds', ⟨_, _, _, _, _, _, row, _, rfl, hser'⟩, q, hq, hok, hds⟩ := hw
  obtain ⟨b, hb, hselection, hseq, -⟩ := h.exists_of_serializedIn hn hser
  obtain ⟨b', hb', hselection', hno⟩ := mem_skipped.mp hskipped
  obtain ⟨r, hr, hyes, hseq'⟩ := h.exists_of_accepted hser' hq hok hds
  obtain rfl := eq_of_mem_fetched hn hb hr hseq hseq'
  rw [← h.selections] at hss
  obtain rfl := List.inj_on_of_nodup_map hss hb hb' (hselection.trans hselection'.symm)
  rw [hno] at hyes
  exact nomatch hyes

/-- Where no ledger is fetched twice, none has two fates. -/
theorem fate_unique (h : ExportedBy e ss es bs) (hn : (out bs).fetched.Nodup) (hss : ss.Nodup)
    {f f' : ExportFate} (hf : ExportFate.Of e es (out bs) seq f)
    (hf' : ExportFate.Of e es (out bs) seq f') : f = f' := by
  -- a ledger that was left out has no documents that could have been sent
  have hserialized : ∀ {g}, ExportFate.Of e es (out bs) seq g → g = .skipped ∨ g = .written →
      seq ∉ (out bs).unindexable := by
    rintro g hg (rfl | rfl) hu
    · obtain ⟨s, ds, hser, -⟩ := hg
      exact h.not_serializedIn_of_unindexable hn hu hser
    · obtain ⟨s, ds, hser, -⟩ := hg
      exact h.not_serializedIn_of_unindexable hn hu hser
  cases f with
  | unindexable =>
    cases f' with
    | unindexable => rfl
    | skipped => exact absurd hf (hserialized hf' (.inl rfl))
    | written => exact absurd hf (hserialized hf' (.inr rfl))
  | skipped =>
    cases f' with
    | unindexable => exact absurd hf' (hserialized hf (.inl rfl))
    | skipped => rfl
    | written => exact (h.not_skipped_of_written hn hss hf hf').elim
  | written =>
    cases f' with
    | unindexable => exact absurd hf' (hserialized hf (.inr rfl))
    | skipped => exact (h.not_skipped_of_written hn hss hf' hf).elim
    | written => rfl

/-- Only a ledger that was fetched has a fate. -/
theorem mem_fetched_of_fate (h : ExportedBy e ss es bs) {f : ExportFate}
    (hf : ExportFate.Of e es (out bs) seq f) : seq ∈ (out bs).fetched := by
  cases f with
  | unindexable =>
    obtain ⟨b, hb, -, hseq⟩ := h.exists_of_mem_unindexable hf
    exact mem_fetched.mpr ⟨b, hb, hseq⟩
  | skipped =>
    obtain ⟨s, ds, hser, -⟩ := hf
    exact h.mem_fetched_of_serializedIn hser
  | written =>
    obtain ⟨s, ds, hser, -⟩ := hf
    exact h.mem_fetched_of_serializedIn hser

end ExportedBy

end LedgerSearch
