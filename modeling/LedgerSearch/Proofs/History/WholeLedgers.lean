import Mathlib
import LedgerSearch.Proofs.Program.Requests
import LedgerSearch.Proofs.Serialize.BatchContents
import LedgerSearch.Replay

/-
  Whatever indexes ledgers sends them whole: a bulk request has all documents of a ledger or none,
  as long as the source and the stream tell of the same ledgers.
-/

namespace LedgerSearch

open Program

/-! ## What there is to tell -/

/-- Both have the same rows of the ledger. -/
def Rows.Agree (r s : Rows) (seq : UInt32) : Prop :=
  r.transactionsOf seq = s.transactionsOf seq ∧ r.feesOf seq = s.feesOf seq

theorem Rows.Agree.serializes {r s : Rows} {row : LedgerRow} {ds : List Document}
    (h : r.Agree s row.seq) (hr : r.Serializes row ds) : s.Serializes row ds := by
  obtain ⟨stats, hr⟩ := hr
  refine ⟨stats, ?_⟩
  unfold Rows.emit at *
  rw [← h.1, ← h.2, hr]

/-- Ledgers of different sequences with their rows. -/
structure Content where
  ledgers : List LedgerRow
  rows : Rows
  distinct : (ledgers.map (·.seq)).Nodup

namespace Content

/-- Documents of ledgers of the content: of each ledger all or none. -/
structure Bundles (c : Content) (docs : List Document) : Prop where
  exists_ledger : ∀ d ∈ docs, ∃ row ∈ c.ledgers, ∃ ds, c.rows.Serializes row ds ∧ d ∈ ds
  whole : ∀ row ∈ c.ledgers, ∀ ds, c.rows.Serializes row ds → ∀ d ∈ ds, d ∈ docs → ds ⊆ docs

/-- A document belongs to one ledger only. -/
theorem documents_unique {c : Content} {row row' : LedgerRow} {ds ds' : List Document}
    (hrow : row ∈ c.ledgers) (hrow' : row' ∈ c.ledgers) (hs : c.rows.Serializes row ds)
    (hs' : c.rows.Serializes row' ds') {d d' : Document} (hd : d ∈ ds) (hd' : d' ∈ ds')
    (ht : d.token = d'.token) : row = row' ∧ ds = ds' := by
  have hseq : row.seq = row'.seq := by
    rw [← hs.ledger_eq hd, ← hs'.ledger_eq hd', ht]
  obtain rfl := List.inj_on_of_nodup_map c.distinct hrow hrow' hseq
  exact ⟨rfl, hs.unique hs'⟩

/-- Where a document of a ledger has its token in a bundle, the bundle has the document there. -/
theorem Bundles.eq_of_token_eq {c : Content} {docs : List Document} (h : c.Bundles docs)
    {row : LedgerRow} {ds : List Document} (hrow : row ∈ c.ledgers)
    (hs : c.rows.Serializes row ds) {d d' : Document} (hd : d ∈ ds) (hd' : d' ∈ docs)
    (ht : d'.token = d.token) : d' = d := by
  obtain ⟨row', hrow', ds', hs', hmem⟩ := h.exists_ledger d' hd'
  obtain ⟨-, rfl⟩ := documents_unique hrow' hrow hs' hs hmem hd ht
  exact hs.eq_of_token_eq hmem hd ht

theorem bundles_ofLedgers {c : Content} {rows : Rows} {ledgers : List LedgerRow} {s : Serialized}
    (hsub : ledgers ⊆ c.ledgers) (hagree : ∀ row ∈ ledgers, rows.Agree c.rows row.seq)
    (h : Serialized.ofLedgers rows ledgers = (s, .ok ())) : c.Bundles s.documents := by
  constructor
  · intro d hd
    obtain ⟨row, hrow, ds, hs, hmem⟩ := Serialized.exists_of_mem_documents h hd
    exact ⟨row, hsub hrow, ds, (hagree row hrow).serializes hs, hmem⟩
  · intro row hrow ds hs d hd hdocs
    obtain ⟨row', hrow', ds', hs', hd'⟩ := Serialized.exists_of_mem_documents h hdocs
    have heq := documents_unique hrow (hsub hrow') hs ((hagree row' hrow').serializes hs') hd hd' rfl
    rw [heq.2]
    rcases Serialized.exists_serializes h hrow' with ho | ⟨ds'', hs'', hall⟩
    · exact (hs'.not_overflows ho).elim
    · rwa [hs'.unique hs'']

/-- What a source may say that has some of the ledgers, each with all of its rows. -/
def Tells (c : Content) : (Σ q : HistoryQuery, Except Error q.Reply) → Prop
  | ⟨.ledgersInRange _ _, .ok ledgers⟩ => ledgers ⊆ c.ledgers
  | ⟨.ledgersBySeq _, .ok ledgers⟩ => ledgers ⊆ c.ledgers
  | ⟨.nextLedgerAfter _, .ok next⟩ => ∀ row ∈ next, row ∈ c.ledgers
  | ⟨.transactionsOf seqs, .ok txs⟩ =>
    ∀ seq ∈ seqs, txs.filter (·.seq = seq) = c.rows.transactionsOf seq
  | ⟨.feesOf seqs, .ok fees⟩ => ∀ seq ∈ seqs, fees.filter (·.seq = seq) = c.rows.feesOf seq
  | _ => True

/-- What a stream may announce. -/
def Announces (c : Content) (close : LedgerClose) : Prop :=
  close.ledger ∈ c.ledgers ∧
    Rows.Agree ⟨close.transactions, close.fees⟩ c.rows close.ledger.seq

/-- A source that answers does so with the content. -/
def Answers (c : Content) (ev : Event (Site BulkBody)) : Prop := ∀ q ∈ ev.history?, c.Tells q

/-- A body with whole ledgers of the content. -/
def Carried (c : Content) (deployment : String) (body : BulkBody) : Prop :=
  ∃ docs, c.Bundles docs ∧ body = .ofDocuments deployment docs

/-! ## Ledgers of the source -/

variable {c : Content}

theorem carried_of_yields {ledgers : List LedgerRow} (hsub : ledgers ⊆ c.ledgers)
    {deployment : String} {out : Serialized} (h : Exporter.Yields c.Answers ledgers out) :
    c.Carried deployment (.ofDocuments deployment out.documents) := by
  obtain ⟨txs, fees, htxs, hfees, hout⟩ := h
  refine ⟨out.documents, bundles_ofLedgers hsub (fun row hrow => ?_) hout, rfl⟩
  have hseq : row.seq ∈ ledgers.map (·.seq) := List.mem_map_of_mem hrow
  exact ⟨htxs _ rfl _ hseq, hfees _ rfl _ hseq⟩

theorem asks_batch (e : Exporter) (s : Selection) :
    (e.batch s).Asks c.Answers (Site.Sending (c.Carried e.deployment)) fun _ => True := by
  apply Exporter.asks_batch
  have hfetch : (Exporter.fetch s).Asks c.Answers (Site.Sending (c.Carried e.deployment))
      fun ledgers => ledgers ⊆ c.ledgers := by
    cases s with
    | range start count => exact Site.asks_history fun ledgers ha => ha _ rfl
    | seqs seqs => exact Site.asks_history fun ledgers ha => ha _ rfl
  exact hfetch.mono fun ledgers hsub out hout => carried_of_yields hsub hout

/-! ## Services -/

theorem asks_fill {e : Exporter} {g : GapFiller} {start count : Option UInt32} :
    (g.run start count).Asks (Fleet.Answers c.Answers)
      (Fleet.Requests (Site.Sending (c.Carried e.deployment)) fun _ => True) fun _ => True :=
  GapFiller.asks_run fun _ _ => GapFiller.asks_scan.mono fun _ _ _ _ => trivial

theorem asks_follow {t : Tail} {after : Option UInt32} {n : Nat} :
    (t.run after n).Asks c.Answers (Site.Sending (c.Carried t.exporter.deployment))
      fun _ => True := by
  have hresume : (Tail.resumeAfter after).Asks c.Answers
      (Site.Sending (c.Carried t.exporter.deployment)) fun _ => True := by
    cases after with
    | some seq => trivial
    | none =>
      refine (Site.asks_index (by trivial) fun _ _ => trivial).andThen fun bounds _ => ?_
      cases bounds <;> trivial
  refine Tail.asks_run hresume fun after _ => ?_
  refine Tail.asks_step (I := fun _ => True) trivial fun ledger ha => ⟨trivial, fun out hout => ?_⟩
  exact carried_of_yields (List.cons_subset.mpr ⟨ha _ rfl ledger rfl, List.nil_subset _⟩) hout

theorem asks_ledger {e : Exporter} {r : ReplayReport} {close : LedgerClose}
    (h : c.Announces close) :
    (Replay.ledger e r close).Asks c.Answers (Site.Sending (c.Carried e.deployment))
      fun _ => True := by
  unfold Replay.ledger
  refine Exporter.asks_account.andThen fun out hout => ?_
  have hbundles : c.Bundles out.documents := by
    refine bundles_ofLedgers (List.cons_subset.mpr ⟨h.1, List.nil_subset _⟩) ?_ hout
    intro row hrow
    rw [List.mem_singleton.mp hrow]
    exact h.2
  exact (Exporter.asks_deliver ⟨out.documents, hbundles, rfl⟩).andThen fun _ _ => trivial

theorem asks_frames {p : Replay} {frames : List Bytes} {r : ReplayReport}
    (h : ∀ frame ∈ frames, ∀ close, LedgerClose.decode p.network frame = .ok close →
      c.Announces close) :
    (p.frames r frames).Asks c.Answers (Site.Sending (c.Carried p.exporter.deployment))
      fun _ => True := by
  induction frames generalizing r with
  | nil => trivial
  | cons frame rest ih =>
    have hdecode : (ofResult (LedgerClose.decode p.network frame) :
        Program (Site BulkBody) LedgerClose).Asks c.Answers
        (Site.Sending (c.Carried p.exporter.deployment)) c.Announces :=
      asks_ofResult fun close hc => h frame List.mem_cons_self close hc
    refine hdecode.andThen fun close hc => ?_
    refine (asks_ledger hc).andThen fun _ _ => ?_
    exact ih fun frame hmem => h frame (List.mem_cons_of_mem _ hmem)

theorem asks_replay {p : Replay} {s : Wire.FrameStream}
    (h : ∀ frame ∈ s.all.1, ∀ close, LedgerClose.decode p.network frame = .ok close →
      c.Announces close) :
    (p.run s).Asks c.Answers (Site.Sending (c.Carried p.exporter.deployment)) fun _ => True := by
  unfold Replay.run
  refine (asks_frames h).andThen fun _ _ => ?_
  exact (asks_ofResult fun _ _ => trivial).andThen fun _ _ => trivial

end Content

end LedgerSearch
