import Mathlib
import LedgerSearch.Proofs.GapFill.Trace
import LedgerSearch.Proofs.Program.TraceRun

/-
  What becomes of the ledgers a gap fill finds missing. Each has one fate (`run_accounts`), and the
  report counts each once.
-/

namespace LedgerSearch

open Program

/-- What a missing ledger can come to. -/
inductive Fate where
  | absent
  | unindexable
  | skipped
  | written
deriving DecidableEq

/-- A ledger of that sequence was among the answers of the source. -/
def Returned (es : List (Event (Site BulkBody))) (seq : UInt32) : Prop :=
  ∃ (seqs : List UInt32) (rows : List LedgerRow),
    ⟨.ledgersBySeq seqs, .ok rows⟩ ∈ questions es ∧ seq ∈ rows.map (·.seq)

/-- The ledger, with the rows the source returned for it, has the documents `ds`. -/
def SerializedAs (es : List (Event (Site BulkBody))) (seq : UInt32) (ds : List Document) : Prop :=
  ∃ (seqs : List UInt32) (rows : List LedgerRow) (txs : List TransactionRow) (fees : List FeeRow),
    ⟨.ledgersBySeq seqs, .ok rows⟩ ∈ questions es ∧
    ⟨.transactionsOf (rows.map (·.seq)), .ok txs⟩ ∈ questions es ∧
    ⟨.feesOf (rows.map (·.seq)), .ok fees⟩ ∈ questions es ∧
    ∃ row ∈ rows, row.seq = seq ∧ Rows.Serializes ⟨txs, fees⟩ row ds

/-- How a trace and a report show the fate of a ledger. -/
def Fate.Of (e : Exporter) (es : List (Event (Site BulkBody))) (r : GapReport) (seq : UInt32) :
    Fate → Prop
  | .absent => seq ∈ r.missingInSource ∧ ¬ Returned es seq
  | .unindexable => seq ∈ r.unindexable
  | .skipped => ∃ ds, SerializedAs es seq ds ∧ ∃ seqs, .seqs seqs ∈ r.skipped ∧ seq ∈ seqs
  | .written => ∃ ds, SerializedAs es seq ds ∧ ∃ b ∈ bulks es, accepted b.2 = true ∧
      ∀ d ∈ ds, BulkEntry.ofDocument e.deployment d ∈ b.1

/-! ## All batches -/

/-- The fate of a ledger that the source returned. -/
def ExportFate.toFate : ExportFate → Fate
  | .unindexable => .unindexable
  | .skipped => .skipped
  | .written => .written

theorem serializedAs_iff {es : List (Event (Site BulkBody))} {seq : UInt32} {ds : List Document} :
    SerializedAs es seq ds ↔ ∃ seqs, SerializedIn es (.seqs seqs) seq ds := Iff.rfl

namespace FilledBy

open BatchRun

variable {e : Exporter} {missing : List UInt32} {es : List (Event (Site BulkBody))}
  {bs : List BatchRun}

theorem returned_iff (h : FilledBy e missing es bs) {seq : UInt32} :
    Returned es seq ↔ seq ∈ (out bs).fetched := by
  rw [mem_fetched]
  constructor
  · rintro ⟨seqs, rows, hq, hseq⟩
    obtain ⟨b, hb, hq⟩ := h.exported.mem_questions.mp hq
    have hanswer : (Selection.seqs seqs).answered rows ∈ questions b.events := hq
    exact ⟨b, hb, ((h.batched hb).eq_of_answered hanswer).2 ▸ hseq⟩
  · rintro ⟨b, hb, hseq⟩
    obtain ⟨rows, hq, hf⟩ := (h.batched hb).exists_answered
    exact ⟨b.seqs, rows, h.exported.mem_questions.mpr ⟨b, hb, hq⟩, hf ▸ hseq⟩

theorem mem_missingInSource (h : FilledBy e missing es bs) {range : UInt32 × UInt32}
    {seq : UInt32} :
    seq ∈ (GapFiller.filled range missing (out bs)).missingInSource ↔
      seq ∈ missing ∧ ¬ Returned es seq := by
  rw [h.returned_iff]
  simp [GapFiller.filled]

/-! ## Counting -/

/-- Every missing ledger is counted once. -/
theorem length_missing (h : FilledBy e missing es bs) (hn : missing.Nodup)
    (hret : ReturnsRequested es) (range : UInt32 × UInt32) :
    missing.length = (GapFiller.filled range missing (out bs)).missingInSource.length +
      (out bs).unindexable.length + (out bs).stats.ledgers := by
  have hfound : (missing.filter ((out bs).fetched.contains ·)).Perm (out bs).fetched := by
    refine (List.perm_ext_iff_of_nodup (hn.filter _) (h.nodup_fetched hn hret)).mpr fun seq => ?_
    rw [List.mem_filter, List.contains_iff_mem, and_iff_right_iff_imp, mem_fetched]
    rintro ⟨b, hb, hseq⟩
    rw [← h.seqs]
    exact List.mem_flatMap.mpr
      ⟨b, hb, h.fetched_subset (fun seqs rows hq => (hret seqs rows hq).1) hb hseq⟩
  have hsplit := List.length_eq_length_filter_add (l := missing) ((out bs).fetched.contains ·)
  rw [hfound.length_eq, h.exported.length_fetched] at hsplit
  show _ = (missing.filter (!(out bs).fetched.contains ·)).length + _ + _
  omega

/-! ## Fates -/

/-- The batch that was given a ledger is the one that has fetched it. -/
theorem fate_iff (h : FilledBy e missing es bs) (hn : missing.Nodup) (hret : ReturnsRequested es)
    (range : UInt32 × UInt32) {seq : UInt32} {f : ExportFate} :
    Fate.Of e es (GapFiller.filled range missing (out bs)) seq f.toFate ↔
      ExportFate.Of e es (out bs) seq f := by
  have hfetched := h.nodup_fetched hn hret
  have hserialized : ∀ {s ds}, SerializedIn es s seq ds →
      ∃ b ∈ bs, s = .seqs b.seqs ∧ seq ∈ b.seqs := by
    intro s ds hs
    obtain ⟨b, hb, rfl, hseq, -⟩ := h.exported.exists_of_serializedIn hfetched hs
    exact ⟨b, hb, h.selection_eq hb,
      h.fetched_subset (fun seqs rows hq => (hret seqs rows hq).1) hb hseq⟩
  cases f with
  | unindexable => exact Iff.rfl
  | skipped =>
    constructor
    · rintro ⟨ds, hs, seqs, hskipped, hseq⟩
      obtain ⟨seqs', hs⟩ := serializedAs_iff.mp hs
      obtain ⟨b, hb, hselection, hin⟩ := hserialized hs
      obtain ⟨b', hb', hselection', -⟩ := mem_skipped.mp hskipped
      rw [h.selection_eq hb'] at hselection'
      obtain rfl := Selection.seqs.inj hselection'
      obtain rfl := h.batch_unique hn hb hb' hin hseq
      exact ⟨_, ds, hs, hselection ▸ hskipped⟩
    · rintro ⟨s, ds, hs, hskipped⟩
      obtain ⟨b, hb, rfl, hin⟩ := hserialized hs
      exact ⟨ds, serializedAs_iff.mpr ⟨_, hs⟩, b.seqs, hskipped, hin⟩
  | written =>
    constructor
    · rintro ⟨ds, hs, hsent⟩
      obtain ⟨seqs, hs⟩ := serializedAs_iff.mp hs
      exact ⟨_, ds, hs, hsent⟩
    · rintro ⟨s, ds, hs, hsent⟩
      obtain ⟨b, hb, rfl, -⟩ := hserialized hs
      exact ⟨ds, serializedAs_iff.mpr ⟨_, hs⟩, hsent⟩

/-- A ledger that is not absent has one of the other fates. -/
theorem exists_toFate {f : Fate} (hne : f ≠ .absent) : ∃ g : ExportFate, g.toFate = f := by
  cases f with
  | absent => exact absurd rfl hne
  | unindexable => exact ⟨.unindexable, rfl⟩
  | skipped => exact ⟨.skipped, rfl⟩
  | written => exact ⟨.written, rfl⟩

/-- Every missing ledger has a fate. -/
theorem exists_fate (h : FilledBy e missing es bs) (hn : missing.Nodup)
    (hret : ReturnsRequested es) (range : UInt32 × UInt32) {seq : UInt32} (hseq : seq ∈ missing) :
    ∃ f, Fate.Of e es (GapFiller.filled range missing (out bs)) seq f := by
  by_cases hreturned : Returned es seq
  · obtain ⟨f, hf⟩ := h.exported.exists_fate (h.returned_iff.mp hreturned)
    exact ⟨f.toFate, (h.fate_iff hn hret range).mpr hf⟩
  · exact ⟨.absent, h.mem_missingInSource.mpr ⟨hseq, hreturned⟩, hreturned⟩

theorem fate_unique (h : FilledBy e missing es bs) (hn : missing.Nodup)
    (hret : ReturnsRequested es) {range : UInt32 × UInt32} {seq : UInt32} {f f' : Fate}
    (hf : Fate.Of e es (GapFiller.filled range missing (out bs)) seq f)
    (hf' : Fate.Of e es (GapFiller.filled range missing (out bs)) seq f') : f = f' := by
  -- every other fate is one of a ledger that the source returned
  have hreturned : ∀ {g : ExportFate},
      Fate.Of e es (GapFiller.filled range missing (out bs)) seq g.toFate → Returned es seq :=
    fun hg => h.returned_iff.mpr
      (h.exported.mem_fetched_of_fate ((h.fate_iff hn hret range).mp hg))
  by_cases habsent : f = .absent
  · subst habsent
    by_contra hne
    obtain ⟨g, rfl⟩ := exists_toFate (Ne.symm hne)
    exact hf.2 (hreturned hf')
  · obtain ⟨g, rfl⟩ := exists_toFate habsent
    by_cases habsent' : f' = .absent
    · subst habsent'
      exact absurd (hreturned hf) hf'.2
    · obtain ⟨g', rfl⟩ := exists_toFate habsent'
      rw [h.exported.fate_unique (h.nodup_fetched hn hret) (h.nodup_selections hn)
        ((h.fate_iff hn hret range).mp hf) ((h.fate_iff hn hret range).mp hf')]

end FilledBy

/-! ## Reports -/

theorem Fate.of_append {e : Exporter} {scanned es : List (Event (Site BulkBody))}
    (hq : questions scanned = []) (hb : bulks scanned = []) {r : GapReport} {seq : UInt32}
    {f : Fate} : Fate.Of e (scanned ++ es) r seq f ↔ Fate.Of e es r seq f := by
  cases f <;>
    simp only [Fate.Of, Returned, SerializedAs, questions_append, bulks_append, hq, hb,
      List.nil_append]

/-- A gap fill that is no dry run and comes to its end leaves every ledger it found missing with
    exactly one fate: the source did not return it, it cannot be indexed, its batch was skipped, or
    a request with all of its documents was accepted. The report counts each of them once. -/
theorem GapFiller.run_accounts {e : Exporter} {g : GapFiller} {start count : Option UInt32}
    {report : GapReport} {es : List (Event (Site BulkBody))} (hdry : g.dryRun = false)
    (h : Fleet.Path e (g.run start count) es (.done report)) (hret : ReturnsRequested es)
    (hwithin : AnswersWithin es) :
    (∀ seq ∈ report.missing, ∃! f, Fate.Of e es report seq f) ∧
    report.missing.length =
      report.missingInSource.length + report.unindexable.length + report.stats.ledgers := by
  rcases path_run hdry h hwithin with ⟨hm, hs, hu, hl⟩ | hfilled
  · rw [hm, hs, hu, hl]
    exact ⟨(fun _ hseq => nomatch hseq), rfl⟩
  · obtain ⟨scanned, rest, range, total, rfl, hq, hb, hasc, hall, hreport⟩ := hfilled
    obtain ⟨bs, hbs, rfl⟩ := exists_filledBy hall
    have hn : report.missing.Nodup := hasc.imp fun hlt => UInt32.ne_of_lt hlt
    have hret' : ReturnsRequested rest := fun seqs rows hmem => hret seqs rows (by
      rw [questions_append]
      exact List.mem_append_right _ hmem)
    refine ⟨fun seq hseq => ?_, ?_⟩
    · obtain ⟨f, hf⟩ := hbs.exists_fate hn hret' range hseq
      rw [hreport]
      refine ⟨f, (Fate.of_append hq hb).mpr hf, fun f' hf' => ?_⟩
      exact hbs.fate_unique hn hret' ((Fate.of_append hq hb).mp hf') hf
    · have := hbs.length_missing hn hret' range
      rw [hreport]
      exact this

/-- The two sample ledgers, of which the index holds neither, are filled by one request. -/
theorem GapFiller.run_accounts_sample :
    ∃ es report, Fleet.Path ⟨"live", ⟨0, 0⟩⟩ (run {} (some 6) (some 2)) es (.done report) ∧
      report.missing = [6, 7] ∧
      (∀ seq ∈ report.missing, ∃! f, Fate.Of ⟨"live", ⟨0, 0⟩⟩ es report seq f) ∧
      report.missing.length =
        report.missingInSource.length + report.unindexable.length + report.stats.ledgers := by
  have hok : (Serialized.ofLedgers sampleRows (sampleCloses.map (·.ledger))).2 = .ok () := by
    decide +kernel
  have hdocs : (Serialized.ofLedgers sampleRows (sampleCloses.map (·.ledger))).1.documents ≠ [] := by
    have hlen : (Serialized.ofLedgers sampleRows
        (sampleCloses.map (·.ledger))).1.documents.length = 17 := by decide +kernel
    intro hnil
    rw [hnil] at hlen
    exact nomatch hlen
  obtain ⟨es, hpath, hq, -, hn⟩ := Exporter.exists_path_batch (e := ⟨"live", ⟨0, 0⟩⟩) rfl [6, 7]
    (by decide +kernel) (Prod.ext rfl hok) hdocs (.ok {})
  obtain ⟨r, hbatch⟩ : ∃ r, (Exporter.batch ⟨"live", ⟨0, 0⟩⟩ (.seqs [6, 7])).Path es (.done r) :=
    ⟨_, hpath⟩
  have hbatches : seqBatches 50 [6, 7] = [.seqs [6, 7]] := by simp [seqBatches, groupsOf]
  have hall := Fleet.exists_path_exportAll hbatch
  rw [← hbatches] at hall
  have hscan := exists_path_scan {} 6 8 (by decide) (by decide) []
  have hrun : Fleet.Path ⟨"live", ⟨0, 0⟩⟩ (run {} (some 6) (some 2)) _ (.done _) :=
    Fleet.path_andThen.mpr ⟨[], _, some (6, 8), rfl, Fleet.path_ofSite.mpr (.here _),
      Fleet.path_andThen.mpr ⟨_, _, [6, 7], rfl, Fleet.path_ofSite.mpr hscan,
        Fleet.path_andThen.mpr ⟨_, _, (), rfl, Fleet.path_ofSite.mpr (Site.path_increment.mpr rfl),
          Fleet.path_andThen.mpr ⟨es, [], _, rfl, hall, Fleet.path_done.mpr ⟨rfl, rfl⟩⟩⟩⟩⟩
  refine ⟨_, _, hrun, rfl, run_accounts rfl hrun (fun seqs rows hmem => ?_)
    fun lo hi held hmem x hx => ?_⟩
  · rw [questions_append, questions_append, questions_append, questions_append, hq] at hmem
    have hmem : (⟨.ledgersBySeq seqs, .ok rows⟩ : Σ q : HistoryQuery, Except Error q.Reply) ∈
        [⟨.ledgersBySeq [6, 7], .ok (sampleCloses.map (·.ledger))⟩, _, _] := hmem
    simp only [List.mem_cons, List.not_mem_nil, or_false] at hmem
    rcases hmem with h | h | h
    · cases h
      decide +kernel
    · cases h
    · cases h
  · have hmem : (⟨.index (.seqsIn lo hi), .ok held⟩ : Event (Site BulkBody)) ∈
        [⟨.index (.seqsIn 6 8), .ok []⟩, ⟨.increment .missingLedgers 2, ()⟩] ++ (es ++ []) := hmem
    rw [List.append_nil, List.mem_append] at hmem
    rcases hmem with h | h
    · simp only [List.mem_cons, List.not_mem_nil, or_false] at h
      rcases h with h | h
      · cases h
        exact nomatch hx
      · cases h
    · exact absurd rfl (hn _ h lo hi)

end LedgerSearch
