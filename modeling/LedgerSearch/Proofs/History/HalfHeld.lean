import Mathlib
import LedgerSearch.Memory.Index
import LedgerSearch.Proofs.GapFill.Trace
import LedgerSearch.Proofs.History.WholeLedgers
import LedgerSearch.Proofs.Program.TraceRun

/-
  Ledgers of which the index holds a part. An index may store some documents of a request that it
  refuses; requests carry whole ledgers, so that a ledger accepted once is held whole, and one that
  was refused for good is held as far as the refusals left it behind.
-/

namespace LedgerSearch

/-! ## Documents in an index -/

theorem BulkEntry.token_eq_of_ofDocument {deployment : String} {d d' : Document}
    (h : ofDocument deployment d = ofDocument deployment d') : d.token = d'.token :=
  Token.text_injective (Option.some.inj (congrArg BulkEntry.id h))

namespace Memory.Index

/-- The document is in the index, at its place and as it is. -/
def Holds (x : Index) (d : Document) : Prop :=
  x.documents[(d.index.qualified x.deployment, d.token.text)]? = some d.toJson

theorem deployment_store (x : Index) (b : BulkBody) : (x.store b).deployment = x.deployment := by
  induction b generalizing x with
  | nil => rfl
  | cons e b ih => exact ih (x.storeEntry e)

theorem holds_storeEntry {x : Index} {d d' : Document} (h : d'.token = d.token → d' = d) :
    (x.storeEntry (.ofDocument x.deployment d')).Holds d ↔ d' = d ∨ x.Holds d := by
  unfold Holds storeEntry
  simp only [BulkEntry.ofDocument, Option.getD_some, Std.HashMap.getElem?_insert, beq_iff_eq,
    Prod.mk.injEq]
  split
  · rename_i hkey
    obtain rfl := h (Token.text_injective hkey.2)
    exact ⟨fun _ => .inl rfl, fun _ => rfl⟩
  · rename_i hkey
    constructor
    · exact .inr
    · rintro (rfl | hx)
      · exact (hkey ⟨rfl, rfl⟩).elim
      · exact hx

/-- Of documents with tokens of their own, the index holds those that it has stored, besides those
    that it had. -/
theorem holds_store {x : Index} {b : BulkBody} {d : Document}
    (h : ∀ e ∈ b, ∃ d', e = .ofDocument x.deployment d' ∧ (d'.token = d.token → d' = d)) :
    (x.store b).Holds d ↔ .ofDocument x.deployment d ∈ b ∨ x.Holds d := by
  induction b generalizing x with
  | nil => exact ⟨.inr, fun hx => hx.resolve_left fun hmem => nomatch hmem⟩
  | cons e b ih =>
    obtain ⟨d', rfl, hd'⟩ := h e List.mem_cons_self
    have hrest := ih (x := x.storeEntry (.ofDocument x.deployment d'))
      fun e he => h e (List.mem_cons_of_mem _ he)
    have hsame : d' = d ↔ BulkEntry.ofDocument x.deployment d = .ofDocument x.deployment d' := by
      constructor
      · rintro rfl
        rfl
      · intro heq
        exact hd' (BulkEntry.token_eq_of_ofDocument heq).symm
    have hstore : x.store (.ofDocument x.deployment d' :: b) =
        (x.storeEntry (.ofDocument x.deployment d')).store b := rfl
    rw [hstore, hrest, holds_storeEntry hd', List.mem_cons, ← hsame]
    exact or_left_comm.trans or_assoc.symm

end Memory.Index

/-! ## Histories -/

/-- An exchange with the surroundings, and what the index has stored of it. -/
structure Exchange where
  event : Event (Site BulkBody)
  stored : BulkBody

namespace Exchange

/-- Of a bulk request the index may store any documents, and it stores all where it accepts the
    request. -/
def Fair : Exchange → Prop
  | ⟨⟨.index (.bulk body), reply⟩, stored⟩ =>
    stored ⊆ body ∧ (accepted reply = true → body ⊆ stored)
  | ⟨_, stored⟩ => stored = []

/-- Whether the exchange is a bulk request that the index has accepted. -/
def isAccepted (s : Exchange) : Bool := (s.event.bulk?.map fun b => accepted b.2).getD false

end Exchange

/-- What brings documents into an index. -/
inductive Service where
  | exporting (e : Exporter) (ss : List Selection)
  | filling (e : Exporter) (g : GapFiller) (start count : Option UInt32)
  | following (t : Tail) (after : Option UInt32) (steps : Nat)
  | replaying (p : Replay) (s : Wire.FrameStream)

namespace Service

/-- The deployment whose indexes the service writes to. -/
def deployment : Service → String
  | exporting e _ | filling e _ _ _ => e.deployment
  | following t _ _ => t.exporter.deployment
  | replaying p _ => p.exporter.deployment

/-- What the service reads besides its source is content. -/
def Reads (c : Content) : Service → Prop
  | exporting _ _ | filling _ _ _ _ | following _ _ _ => True
  | replaying p s => ∀ frame ∈ s.all.1, ∀ close,
      LedgerClose.decode p.network frame = .ok close → c.Announces close

/-- A run may leave the trace, whether it has come to its end or not. -/
def Leaves : Service → List (Event (Site BulkBody)) → Prop
  | exporting e ss, es => ∃ q, Fleet.Path e (Fleet.exportAll ss) es q
  | filling e g start count, es => ∃ q, Fleet.Path e (g.run start count) es q
  | following t after steps, es => ∃ q, (t.run after steps).Path es q
  | replaying p s, es => ∃ q, (p.run s).Path es q

/-- Every service sends whole ledgers. -/
theorem Leaves.sends {c : Content} {s : Service} {es : List (Event (Site BulkBody))}
    (h : s.Leaves es) (hr : s.Reads c) (ha : ∀ ev ∈ es, c.Answers ev) :
    ∀ ev ∈ es, Site.Sending (c.Carried s.deployment) ev.request := by
  cases s with
  | exporting e ss =>
    obtain ⟨q, hq⟩ := h
    exact Fleet.asks_of_path (fun s _ => Content.asks_batch e s)
      (Fleet.asks_exportAll fun _ _ => trivial) hq ha
  | filling e g start count =>
    obtain ⟨q, hq⟩ := h
    exact Fleet.asks_of_path (fun s _ => Content.asks_batch e s) Content.asks_fill hq ha
  | following t after steps =>
    obtain ⟨q, hq⟩ := h
    exact Content.asks_follow.of_path hq ha
  | replaying p s =>
    obtain ⟨q, hq⟩ := h
    exact (Content.asks_replay hr).of_path hq ha

end Service

/-- Runs of services for one deployment, one after another or at the same time, with a source that
    answers with the content. -/
structure History (c : Content) (deployment : String) (steps : List Exchange) : Prop where
  runs : ∃ runs : List (Service × List (Event (Site BulkBody))),
    (∀ r ∈ runs, r.1.deployment = deployment ∧ r.1.Reads c ∧ r.1.Leaves r.2) ∧
      (runs.flatMap (·.2)).Perm (steps.map (·.event))
  answers : ∀ s ∈ steps, c.Answers s.event
  fair : ∀ s ∈ steps, s.Fair

/-- What holds of the requests of each run holds of all requests. -/
theorem requests_of_runs {A : Event (Site BulkBody) → Prop} {G : Site.Request BulkBody → Prop}
    {runs : List (Service × List (Event (Site BulkBody)))} {steps : List Exchange}
    (hperm : (runs.flatMap (·.2)).Perm (steps.map (·.event))) (ha : ∀ s ∈ steps, A s.event)
    (hruns : ∀ r ∈ runs, (∀ ev ∈ r.2, A ev) → ∀ ev ∈ r.2, G ev.request) :
    ∀ s ∈ steps, G s.event.request := by
  intro s hs
  obtain ⟨r, hr, hev⟩ := List.mem_flatMap.mp (hperm.mem_iff.mpr (List.mem_map_of_mem hs))
  refine hruns r hr (fun ev hmem => ?_) _ hev
  obtain ⟨s', hs', rfl⟩ := List.mem_map.mp
    (hperm.mem_iff.mp (List.mem_flatMap.mpr ⟨r, hr, hmem⟩))
  exact ha s' hs'

/-- An index that was empty, after the exchanges. -/
def indexAfter (deployment : String) (steps : List Exchange) : Memory.Index :=
  steps.foldl (fun x s => x.store s.stored) { deployment }

theorem deployment_indexAfter (deployment : String) (steps : List Exchange) :
    (indexAfter deployment steps).deployment = deployment := by
  unfold indexAfter
  induction steps using List.reverseRecOn with
  | nil => rfl
  | append_singleton steps s ih =>
    rw [List.foldl_append]
    exact (Memory.Index.deployment_store _ _).trans ih

/-- Some request that was accepted carried the document. -/
def Delivered (deployment : String) (steps : List Exchange) (d : Document) : Prop :=
  ∃ s ∈ steps, ∃ b ∈ s.event.bulk?, accepted b.2 = true ∧ .ofDocument deployment d ∈ b.1

/-- The index has stored the document from a request that it refused. -/
def LeftBehind (deployment : String) (steps : List Exchange) (d : Document) : Prop :=
  ∃ s ∈ steps, s.isAccepted = false ∧ .ofDocument deployment d ∈ s.stored

/-! ## Indexes that keep one document of a refused request -/

/-- The index has stored what it has accepted, and of what it has refused the documents of that
    id. -/
def keeping (id : String) (ev : Event (Site BulkBody)) : Exchange where
  event := ev
  stored := match ev.bulk? with
    | some (body, reply) => if accepted reply then body else body.filter (·.id = some id)
    | none => []

theorem fair_keeping (id : String) (ev : Event (Site BulkBody)) : (keeping id ev).Fair := by
  obtain ⟨r, reply⟩ := ev
  cases r with
  | index call =>
    cases call with
    | bulk body =>
      show (if accepted reply then body else _) ⊆ body ∧ (_ → body ⊆ if accepted reply then body else _)
      split
      · exact ⟨List.Subset.refl _, fun _ => List.Subset.refl _⟩
      · rename_i hacc
        exact ⟨List.filter_subset_self _, fun h => (hacc h).elim⟩
    | _ => rfl
  | _ => rfl

theorem map_event_keeping (id : String) (es : List (Event (Site BulkBody))) :
    (es.map (keeping id)).map (·.event) = es := by
  rw [List.map_map]
  exact List.map_id es

theorem leftBehind_keeping {deployment id : String} {es : List (Event (Site BulkBody))}
    {b : BulkBody × Except Error Search.BulkReply} {d : Document} (hb : b ∈ bulks es)
    (hacc : accepted b.2 = false) (hd : .ofDocument deployment d ∈ b.1)
    (hid : d.token.text = id) : LeftBehind deployment (es.map (keeping id)) d := by
  obtain ⟨ev, hev, hbulk⟩ := List.mem_filterMap.mp hb
  refine ⟨keeping id ev, List.mem_map_of_mem hev, ?_, ?_⟩
  · unfold Exchange.isAccepted keeping
    rw [hbulk]
    exact hacc
  · have hstored : (keeping id ev).stored =
        if accepted b.2 then b.1 else b.1.filter (·.id = some id) := by
      unfold keeping
      rw [hbulk]
    rw [hstored, hacc]
    exact List.mem_filter.mpr ⟨hd, decide_eq_true (congrArg some hid)⟩

theorem text_of_leftBehind_keeping {deployment id : String} {es : List (Event (Site BulkBody))}
    {d : Document} (h : LeftBehind deployment (es.map (keeping id)) d) : d.token.text = id := by
  obtain ⟨s, hs, hacc, he⟩ := h
  obtain ⟨ev, -, rfl⟩ := List.mem_map.mp hs
  unfold Exchange.isAccepted at hacc
  unfold keeping at hacc he
  cases hb : ev.bulk? with
  | none =>
    simp only [hb] at he
    exact nomatch he
  | some b =>
    simp only [hb, Option.map_some, Option.getD_some] at hacc he
    rw [hacc] at he
    exact Option.some.inj (of_decide_eq_true (List.mem_filter.mp he).2)

/-- Of a ledger of which the first document is kept no other is. -/
theorem not_leftBehind_keeping {deployment : String} {es : List (Event (Site BulkBody))}
    {rows : Rows} {row : LedgerRow} {doc : LedgerDoc} {rest : List Document}
    (hs : rows.Serializes row (.ledger doc :: rest)) {d : Document} (hd : d ∈ rest) :
    ¬ LeftBehind deployment (es.map (keeping doc.token.text)) d := by
  intro hleft
  have ht : d.token = doc.token := Token.text_injective (text_of_leftBehind_keeping hleft)
  have hnodup := hs.nodup_tokens
  rw [List.map_cons, List.nodup_cons] at hnodup
  exact hnodup.1 (List.mem_map.mpr ⟨d, hd, ht⟩)

/-! ## What becomes of ledgers -/

namespace History

variable {c : Content} {deployment : String} {steps : List Exchange}

theorem sends (h : History c deployment steps) :
    ∀ s ∈ steps, Site.Sending (c.Carried deployment) s.event.request := by
  obtain ⟨runs, hruns, hperm⟩ := h.runs
  refine requests_of_runs hperm h.answers fun r hr ha => ?_
  obtain ⟨rfl, hreads, hleaves⟩ := hruns r hr
  exact hleaves.sends hreads ha

theorem delivered_iff {d : Document} : Delivered deployment steps d ↔
    ∃ b ∈ bulks (steps.map (·.event)), accepted b.2 = true ∧ .ofDocument deployment d ∈ b.1 := by
  unfold Delivered bulks
  constructor
  · rintro ⟨s, hs, b, hb, hd⟩
    exact ⟨b, List.mem_filterMap.mpr ⟨s.event, List.mem_map_of_mem hs, hb⟩, hd⟩
  · rintro ⟨b, hb, hd⟩
    obtain ⟨ev, hev, hb⟩ := List.mem_filterMap.mp hb
    obtain ⟨s, hs, rfl⟩ := List.mem_map.mp hev
    exact ⟨s, hs, b, hb, hd⟩

/-- An exchange is a bulk request with whole ledgers, or nothing is stored from it. -/
theorem exists_bundle (h : History c deployment steps) {s : Exchange} (hs : s ∈ steps) :
    (s.event.bulk? = none ∧ s.stored = []) ∨
      ∃ docs reply, s.event.bulk? = some (.ofDocuments deployment docs, reply) ∧ c.Bundles docs ∧
        s.stored ⊆ .ofDocuments deployment docs ∧
        (accepted reply = true → BulkBody.ofDocuments deployment docs ⊆ s.stored) := by
  have hsends := h.sends s hs
  have hfair := h.fair s hs
  obtain ⟨⟨r, reply⟩, stored⟩ := s
  cases r with
  | index call =>
    cases call with
    | bulk body =>
      obtain ⟨docs, hdocs, rfl⟩ := hsends
      exact .inr ⟨docs, reply, rfl, hdocs, hfair⟩
    | bounds => exact .inl ⟨rfl, hfair⟩
    | seqsIn lo hi => exact .inl ⟨rfl, hfair⟩
    | count n => exact .inl ⟨rfl, hfair⟩
    | buckets start stop interval => exact .inl ⟨rfl, hfair⟩
    | create n mapping => exact hsends.elim
    | delete n => exact hsends.elim
  | history q => exact .inl ⟨rfl, hfair⟩
  | wait ms => exact .inl ⟨rfl, hfair⟩
  | increment k n => exact .inl ⟨rfl, hfair⟩

section

variable {row : LedgerRow} {ds : List Document} {d : Document}

/-- Nothing is stored in the place of a document but the document. -/
theorem own_of_stored (h : History c deployment steps) (hrow : row ∈ c.ledgers)
    (hs : c.rows.Serializes row ds) (hd : d ∈ ds) :
    ∀ s ∈ steps, ∀ e ∈ s.stored,
      ∃ d', e = .ofDocument deployment d' ∧ (d'.token = d.token → d' = d) := by
  intro s hmem e he
  rcases h.exists_bundle hmem with ⟨-, hnone⟩ | ⟨docs, reply, -, hdocs, hsub, -⟩
  · rw [hnone] at he
    exact nomatch he
  · obtain ⟨d', hd', rfl⟩ := List.mem_map.mp (hsub he)
    exact ⟨d', rfl, hdocs.eq_of_token_eq hrow hs hd hd'⟩

theorem holds_foldl {part : List Exchange} {x : Memory.Index}
    (h : ∀ s ∈ part, ∀ e ∈ s.stored,
      ∃ d', e = .ofDocument x.deployment d' ∧ (d'.token = d.token → d' = d)) :
    (part.foldl (fun x s => x.store s.stored) x).Holds d ↔
      (∃ s ∈ part, .ofDocument x.deployment d ∈ s.stored) ∨ x.Holds d := by
  induction part generalizing x with
  | nil => simp
  | cons s part ih =>
    have hdep : (x.store s.stored).deployment = x.deployment := Memory.Index.deployment_store _ _
    have hfirst := Memory.Index.holds_store (h s List.mem_cons_self)
    have hrest := ih (x := x.store s.stored) fun s' hs' => by
      rw [hdep]
      exact h s' (List.mem_cons_of_mem _ hs')
    rw [hdep, hfirst] at hrest
    rw [List.foldl_cons, hrest, List.exists_mem_cons_iff]
    exact or_left_comm.trans or_assoc.symm

/-- The index holds what it has ever stored. -/
theorem holds_iff (h : History c deployment steps) (hrow : row ∈ c.ledgers)
    (hs : c.rows.Serializes row ds) (hd : d ∈ ds) :
    (indexAfter deployment steps).Holds d ↔
      Delivered deployment steps d ∨ LeftBehind deployment steps d := by
  have hempty : ¬ ({ deployment } : Memory.Index).Holds d := by
    unfold Memory.Index.Holds
    rw [Std.HashMap.getElem?_empty]
    exact nofun
  unfold indexAfter
  rw [holds_foldl (x := { deployment }) (h.own_of_stored hrow hs hd), or_iff_left hempty]
  constructor
  · rintro ⟨s, hmem, he⟩
    -- it came with a request that was accepted, or it was left behind by one that was refused
    by_cases hacc : s.isAccepted = true
    · left
      rcases h.exists_bundle hmem with ⟨-, hnone⟩ | ⟨docs, reply, hb, -, hsub, -⟩
      · rw [hnone] at he
        exact nomatch he
      · refine ⟨s, hmem, _, hb, ?_, hsub he⟩
        unfold Exchange.isAccepted at hacc
        rw [hb] at hacc
        exact hacc
    · right
      exact ⟨s, hmem, Bool.eq_false_iff.mpr hacc, he⟩
  · rintro (⟨s, hmem, b, hb, hacc, he⟩ | ⟨s, hmem, -, he⟩)
    · rcases h.exists_bundle hmem with ⟨hnone, -⟩ | ⟨docs, reply, hb', -, -, hall⟩
      · rw [hnone] at hb
        exact nomatch hb
      · obtain rfl := Option.some.inj (hb'.symm.trans hb)
        exact ⟨s, hmem, hall hacc he⟩
    · exact ⟨s, hmem, he⟩

/-- A request that carries one document of a ledger carries all of them. -/
theorem delivered_of_delivered (h : History c deployment steps) (hrow : row ∈ c.ledgers)
    (hs : c.rows.Serializes row ds) (hd : d ∈ ds) (hdel : Delivered deployment steps d)
    {d' : Document} (hd' : d' ∈ ds) : Delivered deployment steps d' := by
  obtain ⟨s, hmem, b, hb, hacc, he⟩ := hdel
  rcases h.exists_bundle hmem with ⟨hnone, -⟩ | ⟨docs, reply, hb', hdocs, -, -⟩
  · rw [hnone] at hb
    exact nomatch hb
  · obtain rfl := Option.some.inj (hb'.symm.trans hb)
    obtain ⟨d₁, hd₁, heq⟩ := List.mem_map.mp he
    have hsame : d₁ = d :=
      hdocs.eq_of_token_eq hrow hs hd hd₁ (BulkEntry.token_eq_of_ofDocument heq)
    rw [hsame] at hd₁
    have hall := hdocs.whole row hrow ds hs d hd hd₁
    exact ⟨s, hmem, _, hb', hacc, List.mem_map_of_mem (hall hd')⟩

end

end History

/-- The sample ledgers with their rows. -/
def sampleContent : Content where
  ledgers := sampleCloses.map (·.ledger)
  rows := sampleRows
  distinct := by decide +kernel

/-- What a gap fill asks that looks for the sixth ledger, and that the index has it. -/
def sampleFill : List (Event (Site BulkBody)) :=
  [⟨.index (.seqsIn 6 7), .ok [6]⟩, ⟨.increment .missingLedgers 0, ()⟩]

/-- A reply that takes one of the seventeen documents of the sample ledgers. -/
def sampleRefusal : Search.BulkReply := { errors := true, items := 17, failed := 16 }

/-- The sixth ledger has more documents than its ledger document. -/
theorem exists_sample_ledger : ∃ out row doc rest,
    Serialized.ofLedgers sampleRows sampleContent.ledgers = (out, .ok ()) ∧
      row ∈ sampleContent.ledgers ∧ row.seq = 6 ∧
      sampleRows.Serializes row (.ledger doc :: rest) ∧ .ledger doc ∈ out.documents ∧
      rest ≠ [] := by
  obtain ⟨out, hout, hfits⟩ : ∃ out, Serialized.ofLedgers sampleRows sampleContent.ledgers =
      (out, .ok ()) ∧ out.unindexable = [] :=
    ⟨_, Prod.ext rfl (by decide +kernel), by decide +kernel⟩
  obtain ⟨row, hrow, hseq, hmany⟩ : ∃ row ∈ sampleContent.ledgers, row.seq = 6 ∧
      1 < (sampleRows.emit row).documents.length := by decide +kernel
  obtain ⟨ds, hds, hsub⟩ : ∃ ds, sampleRows.Serializes row ds ∧ ds ⊆ out.documents := by
    refine (Serialized.exists_serializes hout hrow).resolve_left fun ho => ?_
    have hmem := (Serialized.mem_unindexable hout).mpr ⟨row, hrow, rfl, ho⟩
    rw [hfits] at hmem
    exact nomatch hmem
  obtain ⟨doc, rest, rfl, -⟩ := hds.head
  refine ⟨out, row, doc, rest, hout, hrow, hseq, hds, hsub List.mem_cons_self, ?_⟩
  intro hnil
  subst hnil
  obtain ⟨stats, hemit⟩ := hds
  rw [hemit] at hmany
  exact Nat.lt_irrefl _ hmany

/-- Runs with an index that keeps one document of what it refuses. -/
theorem history_keeping {c : Content} (deployment : String)
    (runs : List (Service × List (Event (Site BulkBody))))
    (hruns : ∀ r ∈ runs, r.1.deployment = deployment ∧ r.1.Reads c ∧ r.1.Leaves r.2)
    (ha : ∀ r ∈ runs, ∀ ev ∈ r.2, c.Answers ev) (id : String) :
    History c deployment ((runs.flatMap (·.2)).map (keeping id)) := by
  refine ⟨⟨runs, hruns, ?_⟩, ?_, ?_⟩
  · rw [map_event_keeping]
  · intro s hs
    obtain ⟨ev, hev, rfl⟩ := List.mem_map.mp hs
    obtain ⟨r, hr, hev⟩ := List.mem_flatMap.mp hev
    exact ha r hr ev hev
  · intro s hs
    obtain ⟨ev, -, rfl⟩ := List.mem_map.mp hs
    exact fair_keeping id ev

/-- An export of the sample ledgers that sends each batch once. -/
def sampleExport : Service := .exporting ⟨"live", ⟨0, 0⟩⟩ [.seqs [6, 7]]

/-- The export, with any answer to its only request. -/
theorem exists_sample_export {out : Serialized} {d : Document}
    (hout : Serialized.ofLedgers sampleRows sampleContent.ledgers = (out, .ok ()))
    (hd : d ∈ out.documents) (reply : Except Error Search.BulkReply) :
    ∃ es, sampleExport.Leaves es ∧
      (∀ ev ∈ es, sampleContent.Answers ev) ∧
      bulks es = [(.ofDocuments "live" out.documents, reply)] := by
  obtain ⟨es, hpath, hq, hb, -⟩ := Exporter.exists_path_batch (e := ⟨"live", ⟨0, 0⟩⟩) rfl [6, 7]
    (by decide +kernel) hout (List.ne_nil_of_mem hd) reply
  refine ⟨es, ⟨_, Fleet.exists_path_exportAll hpath⟩, ?_, hb⟩
  intro ev hev q hq'
  have hmem : q ∈ questions es := List.mem_filterMap.mpr ⟨ev, hev, hq'⟩
  rw [hq] at hmem
  simp only [List.mem_cons, List.not_mem_nil, or_false] at hmem
  rcases hmem with rfl | rfl | rfl
  · exact List.Subset.refl _
  · exact fun _ _ => rfl
  · exact fun _ _ => rfl

/-- An export of the sample ledgers of which the only request is refused, and a gap fill that finds
    nothing missing. -/
theorem exists_sample_history {out : Serialized} {d : Document}
    (hout : Serialized.ofLedgers sampleRows sampleContent.ledgers = (out, .ok ()))
    (hd : d ∈ out.documents) (id : String) :
    ∃ es, History sampleContent "live" (es.map (keeping id)) ∧
      bulks es = [(.ofDocuments "live" out.documents, .ok sampleRefusal)] := by
  obtain ⟨es, hexport, ha, hb⟩ := exists_sample_export hout hd (.ok sampleRefusal)
  have hscan := GapFiller.exists_path_scan {} 6 7 (by decide) (by decide) [6]
  have hfill : Fleet.Path ⟨"live", ⟨0, 0⟩⟩ (GapFiller.run {} (some 6) (some 1)) sampleFill
      (.done { range := some (6, 7) }) :=
    Fleet.path_andThen.mpr ⟨[], _, some (6, 7), rfl, Fleet.path_ofSite.mpr (.here _),
      Fleet.path_andThen.mpr ⟨[_], [_], [], rfl, Fleet.path_ofSite.mpr hscan,
        Fleet.path_andThen.mpr ⟨[_], [], (), rfl,
          Fleet.path_ofSite.mpr (Site.path_increment.mpr rfl), Fleet.path_done.mpr ⟨rfl, rfl⟩⟩⟩⟩
  have hanswers : ∀ ev ∈ sampleFill, sampleContent.Answers ev := by
    intro ev hev
    simp only [sampleFill, List.mem_cons, List.not_mem_nil, or_false] at hev
    rcases hev with rfl | rfl <;> exact nofun
  refine ⟨es ++ sampleFill, ?_, ?_⟩
  · have h := history_keeping (c := sampleContent) "live"
      [(sampleExport, es), (.filling ⟨"live", ⟨0, 0⟩⟩ {} (some 6) (some 1), sampleFill)]
      (List.forall_mem_cons.mpr ⟨⟨rfl, trivial, hexport⟩,
        List.forall_mem_singleton.mpr ⟨rfl, trivial, _, hfill⟩⟩)
      (List.forall_mem_cons.mpr ⟨ha, List.forall_mem_singleton.mpr hanswers⟩) id
    simpa using h
  · rw [bulks_append, hb]
    rfl

namespace History

variable {c : Content} {deployment : String} {steps : List Exchange}

/-- A ledger whose document the index holds is held whole exactly where a request with it was
    accepted, or else the refused ones have left behind either no ledger document of it or all of
    its documents. -/
theorem whole_iff (h : History c deployment steps) {row : LedgerRow} (hrow : row ∈ c.ledgers)
    {doc : LedgerDoc} {rest : List Document}
    (hs : c.rows.Serializes row (.ledger doc :: rest)) :
    ((indexAfter deployment steps).Holds (.ledger doc) →
        ∀ d ∈ rest, (indexAfter deployment steps).Holds d) ↔
      Delivered deployment steps (.ledger doc) ∨
        ¬ LeftBehind deployment steps (.ledger doc) ∨
        ∀ d ∈ rest, LeftBehind deployment steps d := by
  have hledger := h.holds_iff hrow hs List.mem_cons_self
  have hothers : ∀ d ∈ rest, ((indexAfter deployment steps).Holds d ↔
      Delivered deployment steps d ∨ LeftBehind deployment steps d) := fun d hd =>
    h.holds_iff hrow hs (List.mem_cons_of_mem _ hd)
  by_cases hdel : Delivered deployment steps (.ledger doc)
  · have hall : ∀ d ∈ rest, (indexAfter deployment steps).Holds d := fun d hd =>
      (hothers d hd).mpr (.inl (h.delivered_of_delivered hrow hs List.mem_cons_self hdel
        (List.mem_cons_of_mem _ hd)))
    exact ⟨fun _ => .inl hdel, fun _ _ => hall⟩
  · -- no document of the ledger was in an accepted request
    have hnone : ∀ d ∈ rest, ¬ Delivered deployment steps d := fun d hd hd' =>
      hdel (h.delivered_of_delivered hrow hs (List.mem_cons_of_mem _ hd) hd' List.mem_cons_self)
    rw [or_iff_right hdel, ← imp_iff_not_or, hledger, or_iff_right hdel]
    constructor
    · intro hwhole hleft d hd
      exact ((hothers d hd).mp (hwhole hleft d hd)).resolve_left (hnone d hd)
    · intro hwhole hleft d hd
      exact (hothers d hd).mpr (.inr (hwhole hleft d hd))

/-- An index refuses the sample ledgers but keeps the document of the sixth. A gap fill then finds
    that ledger there, and the history ends with the rest of it missing. -/
theorem whole_iff_sample :
    ∃ (steps : List Exchange) (row : LedgerRow) (doc : LedgerDoc) (rest : List Document),
      History sampleContent "live" steps ∧ row ∈ sampleContent.ledgers ∧ row.seq = 6 ∧
      sampleContent.rows.Serializes row (.ledger doc :: rest) ∧
      (indexAfter "live" steps).Holds (.ledger doc) ∧
      ¬ ∀ d ∈ rest, (indexAfter "live" steps).Holds d := by
  obtain ⟨out, row, doc, rest, hout, hrow, hseq, hds, hdoc, hrest⟩ := exists_sample_ledger
  obtain ⟨es, history, hb⟩ := exists_sample_history hout hdoc doc.token.text
  refine ⟨_, row, doc, rest, history, hrow, hseq, hds, ?_⟩
  apply Classical.not_imp.mp
  rw [history.whole_iff hrow hds]
  intro hor
  rcases hor with hdel | hleft | hall
  · obtain ⟨b, hb', hacc, -⟩ := delivered_iff.mp hdel
    rw [map_event_keeping, hb] at hb'
    obtain rfl := List.mem_singleton.mp hb'
    exact nomatch hacc
  · have hb' : (BulkBody.ofDocuments "live" out.documents, .ok sampleRefusal) ∈ bulks es := by
      rw [hb]
      exact List.mem_cons_self
    exact hleft (leftBehind_keeping hb' rfl (List.mem_map_of_mem hdoc) rfl)
  · obtain ⟨d, hd⟩ := List.exists_mem_of_ne_nil rest hrest
    exact not_leftBehind_keeping hds hd (hall d hd)

theorem keeping (h : History c deployment steps) (id : String) :
    History c deployment ((steps.map (·.event)).map (LedgerSearch.keeping id)) := by
  obtain ⟨runs, hruns, hperm⟩ := h.runs
  refine ⟨⟨runs, hruns, ?_⟩, ?_, ?_⟩
  · rwa [map_event_keeping]
  · intro s hs
    obtain ⟨ev, hev, rfl⟩ := List.mem_map.mp hs
    obtain ⟨s', hs', rfl⟩ := List.mem_map.mp hev
    exact h.answers s' hs'
  · intro s hs
    obtain ⟨ev, -, rfl⟩ := List.mem_map.mp hs
    exact fair_keeping id ev

/-- Where a ledger was sent and never accepted, an index with the same answers may hold its ledger
    document and none of its other documents. -/
theorem exists_half_held (h : History c deployment steps) {row : LedgerRow}
    (hrow : row ∈ c.ledgers) {doc : LedgerDoc} {rest : List Document}
    (hs : c.rows.Serializes row (.ledger doc :: rest))
    {b : BulkBody × Except Error Search.BulkReply} (hb : b ∈ bulks (steps.map (·.event)))
    (hsent : .ofDocument deployment (.ledger doc) ∈ b.1)
    (hnot : ¬ Delivered deployment steps (.ledger doc)) :
    ∃ steps' : List Exchange, steps'.map (·.event) = steps.map (·.event) ∧
      History c deployment steps' ∧ (indexAfter deployment steps').Holds (.ledger doc) ∧
      ∀ d ∈ rest, ¬ (indexAfter deployment steps').Holds d := by
  have hkeep := h.keeping doc.token.text
  have hnot' : ¬ Delivered deployment
      ((steps.map (·.event)).map (LedgerSearch.keeping doc.token.text)) (.ledger doc) := by
    rw [delivered_iff, map_event_keeping, ← delivered_iff]
    exact hnot
  have hacc : accepted b.2 = false := by
    cases hacc : accepted b.2 with
    | false => rfl
    | true => exact (hnot (delivered_iff.mpr ⟨b, hb, hacc, hsent⟩)).elim
  refine ⟨_, map_event_keeping _ _, hkeep, ?_, ?_⟩
  · have hleft := leftBehind_keeping hb hacc hsent rfl
    exact (hkeep.holds_iff hrow hs List.mem_cons_self).mpr (.inr hleft)
  · intro d hd hholds
    rcases (hkeep.holds_iff hrow hs (List.mem_cons_of_mem _ hd)).mp hholds with hdel | hleft
    · exact hnot' (hkeep.delivered_of_delivered hrow hs (List.mem_cons_of_mem _ hd) hdel
        List.mem_cons_self)
    · exact not_leftBehind_keeping hs hd hleft

end History

end LedgerSearch
