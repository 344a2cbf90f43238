import Mathlib
import LedgerSearch.GapFill
import LedgerSearch.Proofs.Delivery.BatchTrace
import LedgerSearch.Tail

/-
  What a program may ask as long as it gets answers of some kind. Programs that go on from each
  other ask what their parts ask, and so do units on workers.
-/

namespace LedgerSearch

open Program

namespace Program

variable {I : Interface} {α β : Type} {A : Event I → Prop} {G : I.Request → Prop} {Q : α → Prop}

/-- Whatever answers of `A` the program gets, its requests are of `G` and its result is of `Q`. -/
def Asks (A : Event I → Prop) (G : I.Request → Prop) (Q : α → Prop) : Program I α → Prop
  | .done a => Q a
  | .stop _ => True
  | .ask r next => G r ∧ ∀ reply, A ⟨r, reply⟩ → (next reply).Asks A G Q

theorem Asks.andThen {R : β → Prop} {p : Program I α} {f : α → Program I β} (hp : p.Asks A G Q)
    (hf : ∀ a, Q a → (f a).Asks A G R) : (p.andThen f).Asks A G R := by
  induction p with
  | done a => exact hf a hp
  | stop e => trivial
  | ask r next ih => exact ⟨hp.1, fun reply ha => ih reply (hp.2 reply ha)⟩

theorem Asks.mono {R : α → Prop} {p : Program I α} (hp : p.Asks A G Q) (h : ∀ a, Q a → R a) :
    p.Asks A G R := by
  induction p with
  | done a => exact h a hp
  | stop e => trivial
  | ask r next ih => exact ⟨hp.1, fun reply ha => ih reply (hp.2 reply ha)⟩

theorem asks_ofOutcome {o : Outcome α} (h : ∀ a, o = .ok a → Q a) :
    (ofOutcome o : Program I α).Asks A G Q := by
  cases o with
  | ok a => exact h a rfl
  | error f => trivial

theorem asks_ofResult {o : Except Error α} (h : ∀ a, o = .ok a → Q a) :
    (ofResult o : Program I α).Asks A G Q := by
  cases o with
  | ok a => exact h a rfl
  | error e => trivial

/-- The requests of a trace are of `G` where the answers in it are of `A`. -/
theorem Asks.of_path {p q : Program I α} {es : List (Event I)} (hp : p.Asks A G Q)
    (h : p.Path es q) (ha : ∀ ev ∈ es, A ev) : ∀ ev ∈ es, G ev.request := by
  induction h with
  | here p => exact fun ev hev => nomatch hev
  | ask reply _ ih =>
    intro ev hev
    rcases List.mem_cons.mp hev with rfl | hev
    · exact hp.1
    · exact ih (hp.2 reply (ha _ List.mem_cons_self))
        (fun ev hev => ha ev (List.mem_cons_of_mem _ hev)) ev hev

end Program

/-! ## Single requests -/

namespace Site

variable {Body : Type} {A : Event (Site Body) → Prop} {B : Body → Prop}

/-- Bulk bodies of `B`, and nothing else that changes an index. -/
def Sending (B : Body → Prop) : Request Body → Prop
  | .index (.bulk body) => B body
  | .index (.create _ _) | .index (.delete _) => False
  | .index .bounds | .index (.seqsIn _ _) | .index (.count _) | .index (.buckets _ _ _) => True
  | .history _ | .wait _ | .increment _ _ => True

theorem Sending.of_bulk {ev : Event (Site Body)} (h : Sending B ev.request)
    {b : Body × Except Error Search.BulkReply} (hb : ev.bulk? = some b) : B b.1 := by
  obtain ⟨r, reply⟩ := ev
  cases r with
  | index call =>
    cases call with
    | bulk body =>
      obtain rfl := Option.some.inj hb
      exact h
    | _ => exact nomatch hb
  | _ => exact nomatch hb

theorem asks_history {q : HistoryQuery} {Q : q.Reply → Prop}
    (h : ∀ a, A ⟨.history q, .ok a⟩ → Q a) : (Site.history q).Asks A (Sending B) Q := by
  refine ⟨trivial, fun reply ha => asks_ofResult ?_⟩
  rintro a rfl
  exact h a ha

theorem asks_index {c : IndexCall Body} {Q : c.Reply → Prop} (hg : Sending B (.index c))
    (h : ∀ a, A ⟨.index c, .ok a⟩ → Q a) : (Site.index c).Asks A (Sending B) Q := by
  refine ⟨hg, fun reply ha => asks_ofResult ?_⟩
  rintro a rfl
  exact h a ha

theorem asks_wait {ms : Nat} : (Site.wait ms).Asks A (Sending B) fun _ => True :=
  ⟨trivial, fun _ _ => trivial⟩

theorem asks_increment {c : Counter} {n : Nat} :
    (Site.increment c n).Asks A (Sending B) fun _ => True := ⟨trivial, fun _ _ => trivial⟩

end Site

/-- What asks for nothing to be sent leaves no bulk request. -/
theorem bulks_eq_nil_of_asks {α : Type} {p q : Program (Site BulkBody) α} {Q : α → Prop}
    {es : List (Event (Site BulkBody))}
    (hp : p.Asks (fun _ => True) (Site.Sending fun _ => False) Q) (h : p.Path es q) :
    bulks es = [] := by
  rw [List.eq_nil_iff_forall_not_mem]
  intro b hb
  obtain ⟨ev, hev, hsome⟩ := List.mem_filterMap.mp hb
  exact (hp.of_path h (fun _ _ => trivial) ev hev).of_bulk hsome

/-! ## Units on workers -/

namespace Pool

variable {Body α : Type} {A : Event (Site Body) → Prop} {G : Site.Request Body → Prop}
  {Q : α → Prop}

theorem asks_of_finishes {units : List (Program (Site Body) α)} {es : List (Event (Site Body))}
    {result : Except Error (List α)} (hu : ∀ p ∈ units, p.Asks A G Q)
    (h : Finishes units es result) (ha : ∀ ev ∈ es, A ev) : ∀ ev ∈ es, G ev.request := by
  obtain ⟨ends, hsteps, -⟩ := h
  obtain ⟨ts, -, hpaths, hperm⟩ := hsteps.paths
  intro ev hev
  obtain ⟨t, ht, hev⟩ := List.mem_flatMap.mp (hperm.mem_iff.mpr hev)
  obtain ⟨p, hp, hpath⟩ : ∃ p ∈ units, p.Path t.1 t.2 := by
    obtain ⟨i, hi, rfl⟩ := List.mem_iff_getElem.mp ht
    have hlen : i < units.length := by rwa [hpaths.length_eq]
    exact ⟨units[i], List.getElem_mem hlen, hpaths.get hlen hi⟩
  exact (hu p hp).of_path hpath
    (fun ev hev => ha ev (hperm.mem_iff.mp (List.mem_flatMap.mpr ⟨t, ht, hev⟩))) ev hev

end Pool

/-! ## Programs with workers -/

namespace Fleet

/-- The answers of `A`; what comes of batches is left open. -/
def Answers (A : Event (Site BulkBody) → Prop) : Event Fleet → Prop
  | ⟨.site r, reply⟩ => A ⟨r, reply⟩
  | ⟨.batches _, _⟩ => True

/-- The requests of `G` and batches of `S`, which ask on their own. -/
def Requests (G : Site.Request BulkBody → Prop) (S : Selection → Prop) : Request → Prop
  | .site r => G r
  | .batches ss => ∀ s ∈ ss, S s

variable {α : Type} {A : Event (Site BulkBody) → Prop} {G : Site.Request BulkBody → Prop}
  {S : Selection → Prop} {Q : α → Prop}

theorem asks_ofSite {p : Program (Site BulkBody) α} (h : p.Asks A G Q) :
    (ofSite p).Asks (Answers A) (Requests G S) Q := by
  induction p with
  | done a => exact h
  | stop f => trivial
  | ask r next ih => exact ⟨h.1, fun reply ha => ih reply (h.2 reply ha)⟩

theorem asks_exportAll {ss : List Selection} (h : ∀ s ∈ ss, S s) :
    (exportAll ss).Asks (Answers A) (Requests G S) fun _ => True := by
  refine ⟨h, fun reply _ => ?_⟩
  cases reply <;> trivial

theorem asks_of_path {e : Exporter} {p q : Program Fleet α} {es : List (Event (Site BulkBody))}
    (hbatch : ∀ s, S s → (e.batch s).Asks A G fun _ => True)
    (hp : p.Asks (Answers A) (Requests G S) Q) (h : Path e p es q) (ha : ∀ ev ∈ es, A ev) :
    ∀ ev ∈ es, G ev.request := by
  obtain ⟨fs, hpath, hx⟩ := h
  induction hx generalizing p with
  | nil => exact fun ev hev => nomatch hev
  | site reply _ ih =>
    cases hpath with
    | ask _ hrest =>
      intro ev hev
      rcases List.mem_cons.mp hev with rfl | hev
      · exact hp.1
      · exact ih (hp.2 reply (ha _ List.mem_cons_self))
          (fun ev hev => ha ev (List.mem_cons_of_mem _ hev)) hrest ev hev
  | @batches ss _ _ _ _ hf _ ih =>
    cases hpath with
    | ask _ hrest =>
      intro ev hev
      rcases List.mem_append.mp hev with hev | hev
      · have hunits : ∀ p ∈ ss.map e.batch, p.Asks A G fun _ => True :=
          List.forall_mem_map.mpr fun s hs => hbatch s (hp.1 s hs)
        exact Pool.asks_of_finishes hunits hf (fun ev hev => ha ev (List.mem_append_left _ hev)) ev
          hev
      · exact ih (hp.2 _ trivial) (fun ev hev => ha ev (List.mem_append_right _ hev)) hrest ev hev

end Fleet

/-! ## Deliveries -/

section

variable {Body : Type} {A : Event (Site Body) → Prop} {B : Body → Prop}

theorem Writer.asks_attempt {body : Body} (h : B body) :
    (attempt body).Asks A (Site.Sending B) fun _ => True := by
  unfold attempt
  refine Site.asks_increment.andThen fun _ _ => ?_
  exact ⟨h, fun _ _ => trivial⟩

theorem Writer.asks_attempts {w : Writer} {body : Body} {documents sent left : Nat}
    (h : B body) :
    (w.attempts body documents sent left).Asks A (Site.Sending B) fun _ => True := by
  induction left generalizing sent with
  | zero =>
    refine (asks_attempt h).andThen fun r _ => ?_
    cases r with
    | ok u => exact Site.asks_increment.andThen fun _ _ => trivial
    | error e => exact Site.asks_increment.andThen fun _ _ => trivial
  | succ left ih =>
    refine (asks_attempt h).andThen fun r _ => ?_
    cases r with
    | ok u => exact Site.asks_increment.andThen fun _ _ => trivial
    | error e =>
      refine Site.asks_increment.andThen fun _ _ => ?_
      exact Site.asks_wait.andThen fun _ _ => ih

end

/-! ## Batches -/

variable {A : Event (Site BulkBody) → Prop} {B : BulkBody → Prop}

namespace Exporter

theorem asks_deliver {e : Exporter} {s : Serialized}
    (h : B (BulkBody.ofDocuments e.deployment s.documents)) :
    (e.deliver s).Asks A (Site.Sending B) fun _ => True := by
  unfold deliver Writer.write
  split
  · trivial
  · exact Writer.asks_attempts h

theorem asks_account {result : Serialized × Outcome Unit} :
    (account result).Asks A (Site.Sending B) fun s => result = (s, .ok ()) := by
  obtain ⟨s, outcome⟩ := result
  refine Site.asks_increment.andThen fun _ _ => ?_
  refine Site.asks_increment.andThen fun _ _ => ?_
  have hdone : (ofOutcome outcome : Program (Site BulkBody) Unit).Asks A (Site.Sending B)
      fun _ => outcome = .ok () := asks_ofOutcome fun _ ho => ho
  refine hdone.andThen fun _ ho => ?_
  show (s, outcome) = (s, .ok ())
  rw [ho]

/-- The ledgers come to that with rows of the source. -/
def Yields (A : Event (Site BulkBody) → Prop) (ledgers : List LedgerRow) (s : Serialized) : Prop :=
  ∃ txs fees, A ⟨.history (.transactionsOf (ledgers.map (·.seq))), .ok txs⟩ ∧
    A ⟨.history (.feesOf (ledgers.map (·.seq))), .ok fees⟩ ∧
    Serialized.ofLedgers ⟨txs, fees⟩ ledgers = (s, .ok ())

theorem asks_serialize {ledgers : List LedgerRow} :
    (serialize ledgers).Asks A (Site.Sending B) (Yields A ledgers) := by
  unfold serialize
  refine (Site.asks_history fun txs ha => ha).andThen fun txs htxs => ?_
  refine (Site.asks_history fun fees ha => ha).andThen fun fees hfees => ?_
  exact asks_account.mono fun s hs => ⟨txs, fees, htxs, hfees, hs⟩

theorem asks_batch {e : Exporter} {s : Selection}
    (h : (fetch s).Asks A (Site.Sending B) fun ledgers => ∀ out, Yields A ledgers out →
      B (BulkBody.ofDocuments e.deployment out.documents)) :
    (e.batch s).Asks A (Site.Sending B) fun _ => True := by
  unfold batch
  refine h.andThen fun ledgers hb => ?_
  split
  · trivial
  · refine asks_serialize.andThen fun out hout => ?_
    exact (asks_deliver (hb out hout)).andThen fun _ _ => trivial

end Exporter

/-! ## Gap fills -/

namespace GapFiller

theorem asks_scanRange {start count : Option UInt32} :
    (scanRange start count).Asks A (Site.Sending B) fun _ => True := by
  unfold scanRange
  split
  · trivial
  · refine (Site.asks_index (by trivial) fun _ _ => trivial).andThen fun bounds _ => ?_
    cases bounds <;> trivial

/-- Whatever the windows hold, a scan asks for windows only. -/
theorem asks_scan {g : GapFiller} {lo hi : UInt32} :
    (g.scan lo hi).Asks A (Site.Sending B) fun _ => True := by
  have hfrom : ∀ next start, (scanFrom g.window.toNat hi.toNat next start).Asks A
      (Site.Sending B) fun _ => True := by
    intro next start
    induction next, start using scanFrom.induct g.window.toNat hi.toNat with
    | case1 next start hlt stop ih =>
      rw [scanFrom, if_pos hlt]
      refine (Site.asks_index (by trivial) fun _ _ => trivial).andThen fun held _ => ?_
      exact (ih _).andThen fun _ _ => trivial
    | case2 next start hlt =>
      rw [scanFrom, if_neg hlt]
      trivial
  exact hfrom _ _

theorem asks_run {g : GapFiller} {start count : Option UInt32} {S : Selection → Prop}
    (hscan : ∀ lo hi, (g.scan lo hi).Asks A (Site.Sending B) fun missing =>
      ∀ s ∈ seqBatches g.batch missing, S s) :
    (g.run start count).Asks (Fleet.Answers A) (Fleet.Requests (Site.Sending B) S)
      fun _ => True := by
  unfold run
  refine (Fleet.asks_ofSite asks_scanRange).andThen fun range _ => ?_
  cases range with
  | none => trivial
  | some range =>
    refine (Fleet.asks_ofSite (hscan _ _)).andThen fun missing hmissing => ?_
    refine (Fleet.asks_ofSite Site.asks_increment).andThen fun _ _ => ?_
    dsimp only
    split
    · trivial
    · exact (Fleet.asks_exportAll hmissing).andThen fun _ _ => trivial

end GapFiller

/-! ## Following the source -/

namespace Tail

variable {I : UInt32 → Prop}

/-- A step keeps what holds of the ledger it goes on after. -/
theorem asks_step {e : Exporter} {after : UInt32} (hafter : I after)
    (hnext : ∀ ledger, A ⟨.history (.nextLedgerAfter after), .ok (some ledger)⟩ → I ledger.seq ∧
      ∀ out, Exporter.Yields A [ledger] out →
        B (BulkBody.ofDocuments e.deployment out.documents)) :
    (step e after).Asks A (Site.Sending B) fun s => I (s.cursor after) := by
  unfold step
  refine (Site.asks_history fun next ha => ha).andThen fun next ha => ?_
  cases next with
  | none => exact hafter
  | some ledger =>
    obtain ⟨hseq, hb⟩ := hnext ledger ha
    refine Exporter.asks_serialize.andThen fun out hout => ?_
    split
    · exact hseq
    · refine (Exporter.asks_deliver (hb out hout)).andThen fun d _ => ?_
      cases d with
      | written attempts => exact hseq
      | exhausted attempts last => exact hafter

theorem asks_steps {t : Tail}
    (hstep : ∀ after, I after → (step t.exporter after).Asks A (Site.Sending B) fun s =>
      I (s.cursor after)) {after : UInt32} (hafter : I after) {n : Nat} :
    (t.steps after n).Asks A (Site.Sending B) fun _ => True := by
  induction n generalizing after with
  | zero => trivial
  | succ n ih =>
    refine (hstep after hafter).andThen fun s hs => ?_
    split
    · exact Site.asks_wait.andThen fun _ _ => ih hs
    · exact ih hs

theorem asks_run {t : Tail} {after : Option UInt32} {n : Nat}
    (hresume : (resumeAfter after).Asks A (Site.Sending B) I)
    (hstep : ∀ after, I after → (step t.exporter after).Asks A (Site.Sending B) fun s =>
      I (s.cursor after)) :
    (t.run after n).Asks A (Site.Sending B) fun _ => True :=
  hresume.andThen fun _ hafter => asks_steps hstep hafter

end Tail

end LedgerSearch
