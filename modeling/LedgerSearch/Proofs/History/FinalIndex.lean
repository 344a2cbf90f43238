import Mathlib
import LedgerSearch.Proofs.History.HalfHeld

/-
  What an index ends with. Documents have places of their own, so that it does not matter in which
  order an index stores them, or how often: histories that wrote the same ledgers, and attempted no
  others, leave the same documents (`History.final_documents`).
-/

namespace LedgerSearch

/-! ## Places -/

namespace BulkEntry

/-- Where an index stores the entry, if the entry says so itself. -/
def place? (e : BulkEntry) : Option (String × String) := e.id.map fun id => (e.index, id)

/-- Documents at one place have one token. -/
theorem token_eq_of_place_eq {deployment : String} {d d' : Document}
    (h : (ofDocument deployment d).place? = (ofDocument deployment d').place?) :
    d.token = d'.token :=
  Token.text_injective (Prod.mk.inj (Option.some.inj h)).2

end BulkEntry

namespace Memory.Index

variable {x : Index} {b b' : BulkBody} {key : String × String}

theorem documents_storeEntry {e : BulkEntry} {place : String × String}
    (he : e.place? = some place) :
    (x.storeEntry e).documents[key]? = if place = key then some e.source else x.documents[key]? := by
  obtain ⟨id, hid, rfl⟩ := Option.map_eq_some_iff.mp he
  unfold storeEntry
  simp only [hid, Option.getD_some, Std.HashMap.getElem?_insert, beq_iff_eq]

theorem documents_store_of_forall_ne (hplaced : ∀ e ∈ b, e.place? ≠ none)
    (h : ∀ e ∈ b, e.place? ≠ some key) : (x.store b).documents[key]? = x.documents[key]? := by
  induction b generalizing x with
  | nil => rfl
  | cons e b ih =>
    obtain ⟨place, he⟩ := Option.ne_none_iff_exists'.mp (hplaced e List.mem_cons_self)
    have hne : place ≠ key := by
      intro heq
      exact h e List.mem_cons_self (by rw [he, heq])
    have hrest := ih (x := x.storeEntry e) (fun e' he' => hplaced e' (List.mem_cons_of_mem _ he'))
      fun e' he' => h e' (List.mem_cons_of_mem _ he')
    show ((x.storeEntry e).store b).documents[key]? = _
    rw [hrest, documents_storeEntry he, if_neg hne]

/-- What a body has for a place stands there afterwards, if all it has for that place is the
    same. -/
theorem documents_store_of_mem {e : BulkEntry} (hplaced : ∀ e ∈ b, e.place? ≠ none) (he : e ∈ b)
    (hkey : e.place? = some key) (hsame : ∀ e' ∈ b, e'.place? = some key → e'.source = e.source) :
    (x.store b).documents[key]? = some e.source := by
  induction b generalizing x e with
  | nil => exact nomatch he
  | cons e₀ b ih =>
    have hplaced' : ∀ e' ∈ b, e'.place? ≠ none := fun e' he' =>
      hplaced e' (List.mem_cons_of_mem _ he')
    show ((x.storeEntry e₀).store b).documents[key]? = _
    by_cases hlater : ∃ e' ∈ b, e'.place? = some key
    · obtain ⟨e', he', hkey'⟩ := hlater
      have hsource := hsame e' (List.mem_cons_of_mem _ he') hkey'
      rw [← hsource]
      refine ih hplaced' he' hkey' fun e'' he'' hkey'' => ?_
      exact (hsame e'' (List.mem_cons_of_mem _ he'') hkey'').trans hsource.symm
    · -- nothing behind the first entry goes to the place, so that the first is the one
      have hnone : ∀ e' ∈ b, e'.place? ≠ some key := fun e' he' hkey' => hlater ⟨e', he', hkey'⟩
      have hfirst : e = e₀ := by
        rcases List.mem_cons.mp he with heq | hmem
        · exact heq
        · exact (hnone e hmem hkey).elim
      rw [documents_store_of_forall_ne hplaced' hnone, documents_storeEntry (hfirst ▸ hkey),
        if_pos rfl, hfirst]

/-- Neither order nor repetition matters where each place belongs to one entry. -/
theorem documents_store_congr (hplaced : ∀ e ∈ b, e.place? ≠ none) (hsame : ∀ e, e ∈ b ↔ e ∈ b')
    (hunique : ∀ e ∈ b, ∀ e' ∈ b, e.place? = e'.place? → e.source = e'.source) :
    (x.store b).documents[key]? = (x.store b').documents[key]? := by
  have hplaced' : ∀ e ∈ b', e.place? ≠ none := fun e he => hplaced e ((hsame e).mpr he)
  by_cases h : ∃ e ∈ b, e.place? = some key
  · obtain ⟨e, he, hkey⟩ := h
    rw [documents_store_of_mem hplaced he hkey fun e' he' hkey' =>
        hunique e' he' e he (hkey'.trans hkey.symm),
      documents_store_of_mem hplaced' ((hsame e).mp he) hkey fun e' he' hkey' =>
        hunique e' ((hsame e').mpr he') e he (hkey'.trans hkey.symm)]
  · have hnone : ∀ e ∈ b, e.place? ≠ some key := fun e he hkey => h ⟨e, he, hkey⟩
    rw [documents_store_of_forall_ne hplaced hnone,
      documents_store_of_forall_ne hplaced' fun e he => hnone e ((hsame e).mpr he)]

/-- The index after the exchanges. -/
def after (x : Index) (steps : List Exchange) : Index :=
  steps.foldl (fun x s => x.store s.stored) x

theorem after_eq_store (x : Index) (steps : List Exchange) :
    x.after steps = x.store (steps.flatMap (·.stored)) := by
  induction steps generalizing x with
  | nil => rfl
  | cons s steps ih =>
    show (x.store s.stored).after steps = _
    rw [ih, List.flatMap_cons]
    exact List.foldl_append.symm

end Memory.Index

/-! ## Ledgers that were written -/

namespace Content

variable (c : Content) (deployment : String)

/-- The documents of the ledgers, one ledger after another. -/
def documentsOf (ledgers : List LedgerRow) : List Document :=
  ledgers.flatMap fun row => (c.rows.emit row).documents

/-- A request that the index has accepted carried all documents of the ledger. -/
def Written (steps : List Exchange) (row : LedgerRow) : Prop :=
  ∃ ds, c.rows.Serializes row ds ∧ ∃ s ∈ steps, ∃ b ∈ s.event.bulk?, accepted b.2 = true ∧
    ∀ d ∈ ds, .ofDocument deployment d ∈ b.1

/-- Some request, accepted or not, carried a document of the ledger. -/
def Attempted (steps : List Exchange) (row : LedgerRow) : Prop :=
  ∃ ds, c.rows.Serializes row ds ∧ ∃ s ∈ steps, ∃ b ∈ s.event.bulk?,
    ∃ d ∈ ds, .ofDocument deployment d ∈ b.1

/-- These ledgers of the content were written, and no others were attempted. -/
structure WritesJust (steps : List Exchange) (ledgers : List LedgerRow) : Prop where
  content : ledgers ⊆ c.ledgers
  written : ∀ row ∈ ledgers, c.Written deployment steps row
  attempted : ∀ row ∈ c.ledgers, c.Attempted deployment steps row → row ∈ ledgers

variable {c} {deployment}

/-- The documents of ledgers that serialize are those they serialize to. -/
theorem mem_documentsOf {ledgers : List LedgerRow} {d : Document}
    (h : ∀ row ∈ ledgers, ∃ ds, c.rows.Serializes row ds) :
    d ∈ c.documentsOf ledgers ↔ ∃ row ∈ ledgers, ∃ ds, c.rows.Serializes row ds ∧ d ∈ ds := by
  unfold documentsOf
  rw [List.mem_flatMap]
  constructor
  · intro hd
    obtain ⟨row, hrow, hd⟩ := hd
    obtain ⟨ds, stats, hemit⟩ := h row hrow
    rw [hemit] at hd
    exact ⟨row, hrow, ds, ⟨stats, hemit⟩, hd⟩
  · intro hd
    obtain ⟨row, hrow, ds, ⟨stats, hemit⟩, hd⟩ := hd
    refine ⟨row, hrow, ?_⟩
    rw [hemit]
    exact hd

/-- Documents of the content at one place are one document. -/
theorem source_eq_of_place_eq {ledgers : List LedgerRow} (hsub : ledgers ⊆ c.ledgers)
    (h : ∀ row ∈ ledgers, ∃ ds, c.rows.Serializes row ds) {e e' : BulkEntry}
    (he : e ∈ BulkBody.ofDocuments deployment (c.documentsOf ledgers))
    (he' : e' ∈ BulkBody.ofDocuments deployment (c.documentsOf ledgers))
    (hplace : e.place? = e'.place?) : e.source = e'.source := by
  obtain ⟨d, hd, rfl⟩ := List.mem_map.mp he
  obtain ⟨d', hd', rfl⟩ := List.mem_map.mp he'
  obtain ⟨row, hrow, ds, hs, hmem⟩ := (mem_documentsOf h).mp hd
  obtain ⟨row', hrow', ds', hs', hmem'⟩ := (mem_documentsOf h).mp hd'
  have ht : d.token = d'.token := BulkEntry.token_eq_of_place_eq hplace
  obtain ⟨-, rfl⟩ := documents_unique (hsub hrow) (hsub hrow') hs hs' hmem hmem' ht
  rw [hs.eq_of_token_eq hmem hmem' ht]

end Content

namespace History

variable {c : Content} {deployment : String} {steps : List Exchange} {ledgers : List LedgerRow}

/-- What the index has stored are the documents of the ledgers that were written. -/
theorem mem_stored (h : History c deployment steps)
    (hw : c.WritesJust deployment steps ledgers) {e : BulkEntry} :
    e ∈ steps.flatMap (·.stored) ↔
      e ∈ BulkBody.ofDocuments deployment (c.documentsOf ledgers) := by
  have hserializes : ∀ row ∈ ledgers, ∃ ds, c.rows.Serializes row ds := fun row hrow =>
    (hw.written row hrow).imp fun _ hds => hds.1
  constructor
  · intro he
    obtain ⟨s, hs, he⟩ := List.mem_flatMap.mp he
    rcases h.exists_bundle hs with ⟨-, hnone⟩ | ⟨docs, reply, hb, hdocs, hsub, -⟩
    · rw [hnone] at he
      exact nomatch he
    · obtain ⟨d, hd, rfl⟩ := List.mem_map.mp (hsub he)
      obtain ⟨row, hrow, ds, hds, hmem⟩ := hdocs.exists_ledger d hd
      have hattempted : c.Attempted deployment steps row :=
        ⟨ds, hds, s, hs, _, hb, d, hmem, List.mem_map_of_mem hd⟩
      exact List.mem_map_of_mem ((Content.mem_documentsOf hserializes).mpr
        ⟨row, hw.attempted row hrow hattempted, ds, hds, hmem⟩)
  · intro he
    obtain ⟨d, hd, rfl⟩ := List.mem_map.mp he
    obtain ⟨row, hrow, ds, hds, hmem⟩ := (Content.mem_documentsOf hserializes).mp hd
    obtain ⟨ds', hds', s, hs, b, hb, hacc, hall⟩ := hw.written row hrow
    obtain rfl := hds.unique hds'
    rcases h.exists_bundle hs with ⟨hnone, -⟩ | ⟨docs, reply, hb', -, -, hstored⟩
    · rw [hnone] at hb
      exact nomatch hb
    · obtain rfl := Option.some.inj (hb'.symm.trans hb)
      exact List.mem_flatMap.mpr ⟨s, hs, hstored hacc (hall d hmem)⟩

/-- An index that has gone through a history has the documents of the ledgers that were written in
    the place of what it had there, and otherwise what it had. -/
theorem documents_after (h : History c deployment steps)
    (hw : c.WritesJust deployment steps ledgers) (x : Memory.Index) (key : String × String) :
    (x.after steps).documents[key]? =
      (x.store (.ofDocuments deployment (c.documentsOf ledgers))).documents[key]? := by
  have hserializes : ∀ row ∈ ledgers, ∃ ds, c.rows.Serializes row ds := fun row hrow =>
    (hw.written row hrow).imp fun _ hds => hds.1
  rw [Memory.Index.after_eq_store]
  refine Memory.Index.documents_store_congr (fun e he => ?_) (fun e => h.mem_stored hw)
    fun e he e' he' => Content.source_eq_of_place_eq hw.content hserializes ((h.mem_stored hw).mp he)
      ((h.mem_stored hw).mp he')
  obtain ⟨d, -, rfl⟩ := List.mem_map.mp ((h.mem_stored hw).mp he)
  exact nofun

/-- Histories of one content that wrote the same ledgers and attempted no others take an index to
    the same documents: those it had, overwritten by the documents of these ledgers. -/
theorem final_documents {steps' : List Exchange} (h : History c deployment steps)
    (h' : History c deployment steps') (hw : c.WritesJust deployment steps ledgers)
    (hw' : c.WritesJust deployment steps' ledgers) (x : Memory.Index) :
    ∀ key : String × String,
      (x.after steps).documents[key]? = (x.after steps').documents[key]? ∧
      (x.after steps).documents[key]? =
        (x.store (.ofDocuments deployment (c.documentsOf ledgers))).documents[key]? := by
  intro key
  have hx := h.documents_after hw x key
  exact ⟨hx.trans (h'.documents_after hw' x key).symm, hx⟩

end History

/-- Ledgers of which a request with all of their documents was accepted, and that all have a place
    in a paging token, were written. -/
theorem writesJust_of_bulk {c : Content} {deployment : String} {steps : List Exchange}
    {out : Serialized} {reply : Except Error Search.BulkReply}
    (hout : Serialized.ofLedgers c.rows c.ledgers = (out, .ok ())) (hfits : out.unindexable = [])
    (hb : (BulkBody.ofDocuments deployment out.documents, reply) ∈ bulks (steps.map (·.event)))
    (hacc : accepted reply = true) : c.WritesJust deployment steps c.ledgers := by
  refine ⟨List.Subset.refl _, fun row hrow => ?_, fun row hrow _ => hrow⟩
  obtain ⟨ds, hds, hsub⟩ : ∃ ds, c.rows.Serializes row ds ∧ ds ⊆ out.documents := by
    refine (Serialized.exists_serializes hout hrow).resolve_left fun ho => ?_
    have hmem := (Serialized.mem_unindexable hout).mpr ⟨row, hrow, rfl, ho⟩
    rw [hfits] at hmem
    exact nomatch hmem
  obtain ⟨ev, hev, hbulk⟩ := List.mem_filterMap.mp hb
  obtain ⟨s, hs, rfl⟩ := List.mem_map.mp hev
  exact ⟨ds, hds, s, hs, _, hbulk, hacc, fun d hd => List.mem_map_of_mem (hsub hd)⟩

/-- A reply that takes all documents of the sample ledgers. -/
def sampleAcceptance : Search.BulkReply := { errors := false, items := 17, failed := 0 }

/-- An index that has something else in the place of a document of the sixth ledger. -/
def staleIndex : Memory.Index :=
  ({ deployment := "live" } : Memory.Index).storeEntry ⟨"liveledger", some "25769803776", .null⟩

/-- The sample ledgers are refused once, the index keeping one document, and then accepted; or they
    are accepted at once. The index ends with the same documents. -/
theorem History.final_documents_sample :
    ∃ (steps steps' : List Exchange) (body : BulkBody),
      bulks (steps.map (·.event)) = [(body, .ok sampleRefusal), (body, .ok sampleAcceptance)] ∧
      bulks (steps'.map (·.event)) = [(body, .ok sampleAcceptance)] ∧
      ∀ key : String × String,
        (staleIndex.after steps).documents[key]? = (staleIndex.after steps').documents[key]? ∧
        (staleIndex.after steps).documents[key]? = (staleIndex.store (.ofDocuments "live"
          (sampleContent.documentsOf sampleContent.ledgers))).documents[key]? := by
  obtain ⟨out, hout, hfits⟩ : ∃ out, Serialized.ofLedgers sampleRows sampleContent.ledgers =
      (out, .ok ()) ∧ out.unindexable = [] :=
    ⟨_, Prod.ext rfl (by decide +kernel), by decide +kernel⟩
  obtain ⟨d, hd⟩ : ∃ d, d ∈ out.documents := by
    obtain ⟨out', row, doc, rest, hout', -, -, -, hdoc, -⟩ := exists_sample_ledger
    obtain rfl := (Prod.mk.inj (hout.symm.trans hout')).1
    exact ⟨_, hdoc⟩
  obtain ⟨es, hleaves, ha, hb⟩ := exists_sample_export hout hd (.ok sampleRefusal)
  obtain ⟨es', hleaves', ha', hb'⟩ := exists_sample_export hout hd (.ok sampleAcceptance)
  -- both histories are made of runs of one and the same export
  have hrun : ∀ {es}, sampleExport.Leaves es →
      sampleExport.deployment = "live" ∧ sampleExport.Reads sampleContent ∧ sampleExport.Leaves es :=
    fun h => ⟨rfl, trivial, h⟩
  have h : History sampleContent "live" ((es ++ es').map (LedgerSearch.keeping d.token.text)) := by
    have h := history_keeping "live" [(sampleExport, es), (sampleExport, es')]
      (List.forall_mem_cons.mpr ⟨hrun hleaves, List.forall_mem_singleton.mpr (hrun hleaves')⟩)
      (List.forall_mem_cons.mpr ⟨ha, List.forall_mem_singleton.mpr ha'⟩) d.token.text
    simpa using h
  have h' : History sampleContent "live" (es'.map (LedgerSearch.keeping d.token.text)) := by
    have h' := history_keeping "live" [(sampleExport, es')]
      (List.forall_mem_singleton.mpr (hrun hleaves')) (List.forall_mem_singleton.mpr ha')
      d.token.text
    simpa using h'
  have hbulks : bulks (((es ++ es').map (LedgerSearch.keeping d.token.text)).map (·.event)) =
      [(.ofDocuments "live" out.documents, .ok sampleRefusal),
        (.ofDocuments "live" out.documents, .ok sampleAcceptance)] := by
    rw [map_event_keeping, bulks_append, hb, hb']
    rfl
  have hbulks' : bulks ((es'.map (LedgerSearch.keeping d.token.text)).map (·.event)) =
      [(.ofDocuments "live" out.documents, .ok sampleAcceptance)] := by
    rw [map_event_keeping, hb']
  have hw := writesJust_of_bulk (c := sampleContent) hout hfits
    (hbulks ▸ List.mem_cons_of_mem _ List.mem_cons_self) rfl
  have hw' := writesJust_of_bulk (c := sampleContent) hout hfits
    (hbulks' ▸ List.mem_cons_self) rfl
  exact ⟨_, _, _, hbulks, hbulks', h.final_documents h' hw hw' staleIndex⟩

end LedgerSearch
