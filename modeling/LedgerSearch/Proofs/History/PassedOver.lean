import Mathlib
import LedgerSearch.Proofs.History.HalfHeld

/-
  Ledgers that are passed over. A gap fill and a tail that starts behind the last ledger of the index
  look at ledger documents only: of a ledger that has one they send nothing, so that what the index
  lacks of it stays away.
-/

namespace LedgerSearch

open Program

/-- Answers of an index that holds the ledger document of `seq`, and of a source that returns what
    it is asked for. -/
def Present (seq : UInt32) : Event (Site BulkBody) → Prop
  | ⟨.index (.seqsIn lo hi), .ok held⟩ =>
    held.Pairwise (· < ·) ∧ (∀ x ∈ held, lo ≤ x ∧ x < hi) ∧ (lo ≤ seq → seq < hi → seq ∈ held)
  | ⟨.index .bounds, .ok bounds⟩ => ∃ first last, bounds = some (first, last) ∧ seq ≤ last
  | ⟨.history (.ledgersBySeq seqs), .ok ledgers⟩ => ∀ row ∈ ledgers, row.seq ∈ seqs
  | ⟨.history (.nextLedgerAfter after), .ok next⟩ => ∀ row ∈ next, after < row.seq
  | _ => True

/-- A body without documents of the ledger. -/
def Without (seq : UInt32) (deployment : String) (body : BulkBody) : Prop :=
  ∃ docs, body = .ofDocuments deployment docs ∧ ∀ d ∈ docs, d.token.ledger ≠ seq

theorem without_of_yields {A : Event (Site BulkBody) → Prop} {seq : UInt32} {deployment : String}
    {ledgers : List LedgerRow} {out : Serialized} (hseq : ∀ row ∈ ledgers, row.seq ≠ seq)
    (h : Exporter.Yields A ledgers out) :
    Without seq deployment (.ofDocuments deployment out.documents) := by
  obtain ⟨txs, fees, -, -, hout⟩ := h
  refine ⟨out.documents, rfl, fun d hd => ?_⟩
  obtain ⟨row, hrow, ds, hs, hmem⟩ := Serialized.exists_of_mem_documents hout hd
  rw [hs.ledger_eq hmem]
  exact hseq row hrow

/-! ## Gap fills -/

namespace GapFiller

variable {seq : UInt32}

theorem not_mem_skippedBy (next : Nat) {held : List UInt32} (hasc : held.Pairwise (· < ·))
    (hseq : seq ∈ held) :
    seq ∉ (skippedBy next held).1 ∧ seq.toNat < (skippedBy next held).2 := by
  induction held generalizing next with
  | nil => exact nomatch hseq
  | cons x rest ih =>
    obtain ⟨hx, hrest⟩ := List.pairwise_cons.mp hasc
    have hsize : x.toNat ≤ UInt32.size := Nat.le_of_lt x.toNat_lt
    rw [skippedBy]
    dsimp only
    rw [List.mem_append, not_or, mem_seqsBetween hsize]
    rcases List.mem_cons.mp hseq with rfl | hmem
    · obtain ⟨-, hfrom, hle, -⟩ := ascending_skippedBy (max next (seq.toNat + 1)) rest
      refine ⟨⟨by omega, fun hin => ?_⟩, by omega⟩
      have := hfrom seq hin
      omega
    · have hlt := UInt32.lt_iff_toNat_lt.mp (hx seq hmem)
      obtain ⟨hnot, hafter⟩ := ih (max next (x.toNat + 1)) hrest hmem
      exact ⟨⟨by omega, hnot⟩, hafter⟩

/-- A window does not report a sequence that is held in it, nor one behind or before it. -/
theorem not_mem_missingIn {next stop : Nat} {held : List UInt32} (hsize : stop ≤ UInt32.size)
    (hn : next ≤ stop) (hasc : held.Pairwise (· < ·)) (hheld : ∀ y ∈ held, y.toNat < stop)
    (hseq : seq.toNat < next ∨ seq ∈ held ∨ stop ≤ seq.toNat) :
    seq ∉ (missingIn next stop held).1 ∧
      (seq.toNat < (missingIn next stop held).2 ∨ stop ≤ seq.toNat) := by
  obtain ⟨-, hmem, hle, hafter⟩ := ascending_missingIn hsize hn hheld
  rcases hseq with hlt | hin | hge
  · refine ⟨fun hx => ?_, .inl (by omega)⟩
    have := hmem seq hx
    omega
  · have hne : held ≠ [] := List.ne_nil_of_mem hin
    rw [missingIn, if_neg hne]
    obtain ⟨hnot, hlt⟩ := not_mem_skippedBy next hasc hin
    exact ⟨hnot, .inl hlt⟩
  · refine ⟨fun hx => ?_, .inr hge⟩
    have := hmem seq hx
    omega

theorem asks_scanFrom {B : BulkBody → Prop} {window hi next start : Nat} (hsize : hi < UInt32.size)
    (hn : next ≤ start) (hseq : seq.toNat < next ∨ start ≤ seq.toNat) :
    (scanFrom window hi next start).Asks (Present seq) (Site.Sending B) fun missing =>
      seq ∉ missing := by
  induction next, start using scanFrom.induct window hi with
  | case1 next start hlt stop ih =>
    rw [scanFrom, if_pos hlt]
    refine (Site.asks_index (by trivial) fun held ha => ha).andThen fun held hheld => ?_
    obtain ⟨hasc, hwithin, hin⟩ := hheld
    have hstop : stop ≤ hi := Nat.min_le_right _ _
    have hbelow : ∀ y ∈ held, y.toNat < stop := by
      intro y hy
      exact (UInt32.lt_ofNat_iff (by omega)).mp (hwithin y hy).2
    have hwhere : seq.toNat < next ∨ seq ∈ held ∨ stop ≤ seq.toNat := by
      by_cases hbefore : seq.toNat < next
      · exact .inl hbefore
      · by_cases hbehind : stop ≤ seq.toNat
        · exact .inr (.inr hbehind)
        · have hfrom := (UInt32.ofNat_le_iff (n := seq) (m := start) (by omega)).mpr (by omega)
          have hto := (UInt32.lt_ofNat_iff (n := seq) (m := stop) (by omega)).mpr (by omega)
          exact .inr (.inl (hin hfrom hto))
    have hnext : next ≤ stop := by omega
    obtain ⟨-, -, -, hafter⟩ := ascending_missingIn (by omega) hnext hbelow
    obtain ⟨hnot, hopen⟩ := not_mem_missingIn (by omega) hnext hasc hbelow hwhere
    refine (ih _ hafter hopen).andThen fun more hmore => ?_
    exact fun hx => (List.mem_append.mp hx).elim hnot hmore
  | case2 next start hlt =>
    rw [scanFrom, if_neg hlt]
    exact List.not_mem_nil

/-- A gap fill sends nothing of a ledger that every window has shown. -/
theorem passes_over {e : Exporter} {g : GapFiller} {start count : Option UInt32}
    {es : List (Event (Site BulkBody))} {q : Program Fleet GapReport}
    (h : Fleet.Path e (g.run start count) es q) (ha : ∀ ev ∈ es, Present seq ev) :
    ∀ ev ∈ es, Site.Sending (Without seq e.deployment) ev.request := by
  have hbatch : ∀ s, (∃ seqs, s = .seqs seqs ∧ seq ∉ seqs) →
      (e.batch s).Asks (Present seq) (Site.Sending (Without seq e.deployment)) fun _ => True := by
    rintro s ⟨seqs, rfl, hnot⟩
    apply Exporter.asks_batch
    refine Site.asks_history fun ledgers hledgers out hout => ?_
    refine without_of_yields (fun row hrow heq => hnot ?_) hout
    rw [← heq]
    exact hledgers row hrow
  refine Fleet.asks_of_path hbatch (asks_run fun lo hi => ?_) h ha
  refine (asks_scanFrom hi.toNat_lt (Nat.le_refl _) (by omega)).mono fun missing hnot s hs => ?_
  obtain ⟨seqs, hseqs, rfl⟩ := List.mem_map.mp hs
  refine ⟨seqs, rfl, fun hin => hnot ?_⟩
  rw [← flatten_groupsOf g.batch.toNat missing]
  exact List.mem_flatten.mpr ⟨seqs, hseqs, hin⟩

end GapFiller

/-! ## Tails -/

/-- A tail sends nothing of a ledger that it starts behind, and it starts behind all of the index
    where no start is given. -/
theorem Tail.passes_over {t : Tail} {after : Option UInt32} {steps : Nat} {seq : UInt32}
    {es : List (Event (Site BulkBody))} {q : Program (Site BulkBody) UInt32}
    (hafter : ∀ a ∈ after, seq ≤ a) (h : (t.run after steps).Path es q)
    (ha : ∀ ev ∈ es, Present seq ev) :
    ∀ ev ∈ es, Site.Sending (Without seq t.exporter.deployment) ev.request := by
  have hresume : (resumeAfter after).Asks (Present seq)
      (Site.Sending (Without seq t.exporter.deployment)) fun a => seq ≤ a := by
    cases after with
    | some a => exact hafter a rfl
    | none =>
      refine (Site.asks_index (by trivial) fun bounds hb => hb).andThen fun bounds hb => ?_
      obtain ⟨first, last, rfl, hle⟩ := hb
      exact hle
  have hrun : (t.run after steps).Asks (Present seq)
      (Site.Sending (Without seq t.exporter.deployment)) fun _ => True := by
    refine asks_run hresume fun a hle => asks_step hle fun ledger hnext => ?_
    have hlt : a < ledger.seq := hnext ledger rfl
    have hgt : seq < ledger.seq := UInt32.lt_of_le_of_lt hle hlt
    refine ⟨UInt32.le_of_lt hgt, fun out hout => without_of_yields (fun row hrow => ?_) hout⟩
    rw [List.mem_singleton.mp hrow]
    exact (UInt32.ne_of_lt hgt).symm
  exact hrun.of_path h ha

/-! ## What is passed over stays as it is -/

/-- The service looks for what is missing, or starts behind the ledger. -/
def Service.Passes (seq : UInt32) : Service → Prop
  | exporting _ _ | replaying _ _ => False
  | filling _ _ _ _ => True
  | following _ after _ => ∀ a ∈ after, seq ≤ a

theorem Service.Leaves.without {s : Service} {es : List (Event (Site BulkBody))} {seq : UInt32}
    (h : s.Leaves es) (hp : s.Passes seq) (ha : ∀ ev ∈ es, Present seq ev) :
    ∀ ev ∈ es, Site.Sending (Without seq s.deployment) ev.request := by
  cases s with
  | exporting e ss => exact hp.elim
  | filling e g start count =>
    obtain ⟨q, hq⟩ := h
    exact GapFiller.passes_over hq ha
  | following t after steps =>
    obtain ⟨q, hq⟩ := h
    exact Tail.passes_over hp hq ha
  | replaying p s => exact hp.elim

namespace History

variable {c : Content} {deployment : String} {steps more : List Exchange}

theorem append (h : History c deployment steps) (h' : History c deployment more) :
    History c deployment (steps ++ more) := by
  obtain ⟨runs, hruns, hperm⟩ := h.runs
  obtain ⟨runs', hruns', hperm'⟩ := h'.runs
  refine ⟨⟨runs ++ runs', ?_, ?_⟩, ?_, ?_⟩
  · intro r hr
    exact (List.mem_append.mp hr).elim (hruns r) (hruns' r)
  · rw [List.flatMap_append, List.map_append]
    exact hperm.append hperm'
  · intro s hs
    exact (List.mem_append.mp hs).elim (h.answers s) (h'.answers s)
  · intro s hs
    exact (List.mem_append.mp hs).elim (h.fair s) (h'.fair s)

/-- Once the index answers that it holds the ledger document, no gap fill and no tail behind it
    changes which of the ledger's documents it holds. -/
theorem half_held_stays (h : History c deployment steps)
    {runs : List (Service × List (Event (Site BulkBody)))}
    {row : LedgerRow} (hruns : ∀ r ∈ runs, r.1.deployment = deployment ∧ r.1.Passes row.seq ∧
      r.1.Reads c ∧ r.1.Leaves r.2)
    (hperm : (runs.flatMap (·.2)).Perm (more.map (·.event)))
    (hanswers : ∀ s ∈ more, c.Answers s.event ∧ Present row.seq s.event) (hfair : ∀ s ∈ more, s.Fair)
    (hrow : row ∈ c.ledgers) {ds : List Document} (hs : c.rows.Serializes row ds) {d : Document}
    (hd : d ∈ ds) :
    (indexAfter deployment (steps ++ more)).Holds d ↔ (indexAfter deployment steps).Holds d := by
  have hmore : History c deployment more := by
    refine ⟨⟨runs, fun r hr => ?_, hperm⟩, fun s hs => (hanswers s hs).1, hfair⟩
    obtain ⟨hdep, -, hreads, hleaves⟩ := hruns r hr
    exact ⟨hdep, hreads, hleaves⟩
  have hwithout : ∀ s ∈ more, Site.Sending (Without row.seq deployment) s.event.request := by
    refine requests_of_runs hperm (fun s hs => (hanswers s hs).2) fun r hr ha => ?_
    obtain ⟨rfl, hpasses, -, hleaves⟩ := hruns r hr
    exact hleaves.without hpasses ha
  have hnone : ¬ ∃ s ∈ more, .ofDocument deployment d ∈ s.stored := by
    rintro ⟨s, hmem, he⟩
    rcases hmore.exists_bundle hmem with ⟨-, hempty⟩ | ⟨docs, reply, hb, -, hsub, -⟩
    · rw [hempty] at he
      exact nomatch he
    · obtain ⟨docs', hdocs, hother⟩ := (hwithout s hmem).of_bulk hb
      have hin : .ofDocument deployment d ∈ BulkBody.ofDocuments deployment docs' := by
        rw [← hdocs]
        exact hsub he
      obtain ⟨d', hd', heq⟩ := List.mem_map.mp hin
      apply hother d' hd'
      rw [BulkEntry.token_eq_of_ofDocument heq, hs.ledger_eq hd]
  have hown := hmore.own_of_stored hrow hs hd
  rw [← deployment_indexAfter deployment steps] at hown hnone
  unfold indexAfter at *
  rw [List.foldl_append, holds_foldl hown, or_iff_right hnone]

end History

end LedgerSearch
