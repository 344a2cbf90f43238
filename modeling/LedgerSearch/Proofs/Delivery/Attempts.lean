import Mathlib
import LedgerSearch.Memory.World
import LedgerSearch.Proofs.Delivery.Endings

/-
  Deliveries under any answers. A delivery sends its body until a request is accepted or the
  attempts are used up, reports the last answer, and counts what it does (`Writer.write_follows`).
-/

namespace LedgerSearch

open Program

/-! ## Counters -/

namespace Event

variable {Body : Type}

/-- What an event adds to a counter. -/
def added (c : Counter) : Event (Site Body) → ℕ
  | ⟨.increment c' n, _⟩ => if c' = c then n else 0
  | ⟨.history _, _⟩ | ⟨.index _, _⟩ | ⟨.wait _, _⟩ => 0

/-- The counters after an event. -/
def count (m : Metrics) : Event (Site Body) → Metrics
  | ⟨.increment c n, _⟩ => m.increment c n
  | ⟨.history _, _⟩ | ⟨.index _, _⟩ | ⟨.wait _, _⟩ => m

theorem count_apply (m : Metrics) (ev : Event (Site Body)) (c : Counter) :
    ev.count m c = m c + UInt64.ofNat (ev.added c) := by
  obtain ⟨r, reply⟩ := ev
  cases r with
  | increment c' n =>
    show (if c = c' then m c' + UInt64.ofNat n else m c) =
      m c + UInt64.ofNat (if c' = c then n else 0)
    by_cases hc : c' = c
    · rw [if_pos hc.symm, if_pos hc, hc]
    · rw [if_neg (Ne.symm hc), if_neg hc]
      exact (UInt64.add_zero _).symm
  | _ => exact (UInt64.add_zero _).symm

end Event

section

variable {Body : Type}

/-- What a trace adds to a counter. -/
def counted (c : Counter) (es : List (Event (Site Body))) : ℕ := (es.map (Event.added c)).sum

theorem counted_increment (c c' : Counter) (n : ℕ) :
    counted c [(⟨.increment c' n, ()⟩ : Event (Site Body))] = if c' = c then n else 0 := rfl

theorem counted_wait (c : Counter) (ms : ℕ) :
    counted c [(⟨.wait ms, ()⟩ : Event (Site Body))] = 0 := rfl

theorem counted_attemptEvents (c : Counter) (body : Body)
    (reply : Except Error Search.BulkReply) :
    counted c (Writer.attemptEvents body reply) = if .bulkRequests = c then 1 else 0 := rfl

/-- The counters after a trace. -/
def Metrics.after (m : Metrics) (es : List (Event (Site Body))) : Metrics := es.foldl Event.count m

theorem counted_append (c : Counter) (es fs : List (Event (Site Body))) :
    counted c (es ++ fs) = counted c es + counted c fs := by
  rw [counted, List.map_append, List.sum_append]
  rfl

/-- Every counter grows by what the trace adds to it. -/
theorem Metrics.after_apply (m : Metrics) (es : List (Event (Site Body))) (c : Counter) :
    m.after es c = m c + UInt64.ofNat (counted c es) := by
  induction es generalizing m with
  | nil => exact (UInt64.add_zero _).symm
  | cons ev es ih =>
    have hsum : counted c (ev :: es) = ev.added c + counted c es := counted_append c [ev] es
    rw [after, List.foldl_cons, ← after, ih, Event.count_apply, hsum, UInt64.ofNat_add,
      UInt64.add_assoc]

end

namespace Memory.World

theorem metrics_bulk (w : World) (body : BulkBody) : (w.bulk body).2.metrics = w.metrics := by
  rw [bulk]
  split
  · rfl
  · split <;> rfl

/-- An answer counts what it is asked to count. -/
theorem metrics_answer (w : World) (r : Site.Request BulkBody) :
    (answer r w).2.metrics = Event.count w.metrics ⟨r, (answer r w).1⟩ := by
  cases r with
  | history q =>
    show (answer (.history q) w).2.metrics = w.metrics
    rw [answer]
    split <;> rfl
  | index c =>
    show (answer (.index c) w).2.metrics = w.metrics
    rw [answer]
    split
    · rfl
    · cases c with
      | bulk body => exact metrics_bulk w body
      | _ => rfl
  | wait ms => rfl
  | increment c n => rfl

/-- The counters of a world after a run are those after the trace of the run. -/
theorem metrics_run {α : Type} (p : Program (Site BulkBody) α) (w : World) :
    (p.run answer w).2.metrics = w.metrics.after (p.trace answer w) := by
  induction p generalizing w with
  | done a => rfl
  | stop f => rfl
  | ask r next ih => exact (ih _ _).trans (congrArg (Metrics.after · _) (metrics_answer w r))

end Memory.World

/-! ## Scripts of answers -/

/-- Answers to bulk requests, one after the other. -/
abbrev Script := ℕ → Except Error Search.BulkReply

namespace Script

/-- The number of the first request that is accepted, from one on; `⊤` where none is. -/
noncomputable def firstAccepted (script : Script) : ℕ∞ :=
  ⨅ i : {i // accepted (script i) = true}, ((i.1 + 1 : ℕ) : ℕ∞)

variable {script : Script} {n : ℕ}

theorem lt_firstAccepted (h : ∀ i < n, accepted (script i) = false) :
    (n : ℕ∞) < script.firstAccepted := by
  refine lt_of_lt_of_le (Nat.cast_lt.mpr n.lt_succ_self) (le_iInf fun i => Nat.cast_le.mpr ?_)
  by_contra hlt
  exact Bool.false_ne_true ((h i.1 (by omega)).symm.trans i.2)

theorem firstAccepted_eq (h : ∀ i < n, accepted (script i) = false)
    (hn : accepted (script n) = true) : script.firstAccepted = (n + 1 : ℕ) :=
  le_antisymm (iInf_le (fun i : {i // accepted (script i) = true} => ((i.1 + 1 : ℕ) : ℕ∞)) ⟨n, hn⟩)
    (Order.add_one_le_of_lt (lt_firstAccepted h))

end Script

namespace Writer

variable {Body σ : Type}

/-- The bulk requests of the trace are answered by the script. -/
def Follows (script : Script) (es : List (Event (Site Body))) : Prop :=
  (bulks es).map (·.2) = (List.range (bulks es).length).map script

/-- One attempt and the retries, in 32 bits. -/
def tries (w : Writer) : ℕ := min (w.retries.toNat + 1) (UInt32.size - 1)

theorem furtherAttempts_add_one (w : Writer) : w.furtherAttempts + 1 = w.tries := by
  have hsize : UInt32.size = 4294967296 := rfl
  rw [furtherAttempts, tries]
  omega

/-- What comes of the last attempt. -/
def outcome (attempts : ℕ) (last : Except Error Search.BulkReply) : Delivery :=
  match judged last with
  | .ok () => .written attempts
  | .error e => .exhausted attempts e

theorem outcome_of_accepted {last : Except Error Search.BulkReply} (h : accepted last = true)
    (attempts : ℕ) : outcome attempts last = .written attempts := by
  rw [outcome, judged_eq_ok.mpr h]

theorem outcome_of_judged {last : Except Error Search.BulkReply} {e : Error}
    (h : judged last = .error e) (attempts : ℕ) :
    outcome attempts last = .exhausted attempts e := by
  rw [outcome, h]

theorem exists_judged_of_not_accepted {last : Except Error Search.BulkReply}
    (h : accepted last = false) : ∃ e, judged last = .error e := by
  cases hj : judged last with
  | ok u => exact absurd ((judged_eq_ok.mp hj).symm.trans h) Bool.noConfusion
  | error e => exact ⟨e, rfl⟩

/-- What a delivery of so many documents adds to a counter by its requests, the last of which is
    accepted or not. -/
def adds (documents requests : ℕ) (taken : Bool) : Counter → ℕ
  | .bulkRequests => requests
  | .bulkRetries => requests - 1
  | .documentsWritten => bif taken then documents else 0
  | .bulkFailures => bif taken then 0 else 1
  | .ledgersSerialized | .missingLedgers | .unindexableLedgers => 0

/-- How attempts go, after `sent` earlier ones and with `left` more where they fail: some answers
    refuse the body, the last one takes it or leaves no attempt. -/
structure Went (body : Body) (documents sent left : ℕ) (es : List (Event (Site Body)))
    (d : Delivery) (refusals : List (Except Error Search.BulkReply))
    (last : Except Error Search.BulkReply) : Prop where
  bulks_eq : bulks es = (refusals ++ [last]).map (Prod.mk body)
  refused : ∀ reply ∈ refusals, accepted reply = false
  atMost : refusals.length ≤ left
  usedUp : accepted last = false → refusals.length = left
  outcome_eq : d = outcome (sent + refusals.length + 1) last
  counted_eq : ∀ c, counted c es = adds documents (refusals.length + 1) (accepted last) c

theorem went_taken {body : Body} {documents sent left : ℕ} {reply : Except Error Search.BulkReply}
    (h : accepted reply = true) :
    Went body documents sent left
      (attemptEvents body reply ++ [⟨.increment .documentsWritten documents, ()⟩])
      (.written (sent + 1)) [] reply where
  bulks_eq := rfl
  refused := fun _ hmem => nomatch hmem
  atMost := Nat.zero_le _
  usedUp := fun hno => absurd (h.symm.trans hno) Bool.noConfusion
  outcome_eq := (outcome_of_accepted h _).symm
  counted_eq := fun c => by
    rw [counted_append, counted_attemptEvents, counted_increment, h]
    cases c <;> simp [adds]

theorem went_givenUp {body : Body} {documents sent : ℕ} {reply : Except Error Search.BulkReply}
    {e : Error} (h : judged reply = .error e) :
    Went body documents sent 0 (attemptEvents body reply ++ [⟨.increment .bulkFailures 1, ()⟩])
      (.exhausted (sent + 1) e) [] reply where
  bulks_eq := rfl
  refused := fun _ hmem => nomatch hmem
  atMost := Nat.zero_le _
  usedUp := fun _ => rfl
  outcome_eq := (outcome_of_judged h _).symm
  counted_eq := fun c => by
    rw [counted_append, counted_attemptEvents, counted_increment, not_accepted_of_judged h]
    cases c <;> simp [adds]

/-- A refusal in front of further attempts. -/
theorem Went.retried {body : Body} {documents sent left ms : ℕ} {es : List (Event (Site Body))}
    {d : Delivery} {refusals : List (Except Error Search.BulkReply)}
    {reply last : Except Error Search.BulkReply}
    (hrest : Went body documents (sent + 1) left es d refusals last)
    (h : accepted reply = false) :
    Went body documents sent (left + 1)
      (attemptEvents body reply ++ ([⟨.increment .bulkRetries 1, ()⟩] ++ ([⟨.wait ms, ()⟩] ++ es)))
      d (reply :: refusals) last where
  bulks_eq := by
    rw [bulks_retried, hrest.bulks_eq]
    rfl
  refused := List.forall_mem_cons.mpr ⟨h, hrest.refused⟩
  atMost := Nat.succ_le_succ hrest.atMost
  usedUp := fun hno => congrArg Nat.succ (hrest.usedUp hno)
  outcome_eq := by
    rw [hrest.outcome_eq, List.length_cons]
    congr 1
    omega
  counted_eq := fun c => by
    rw [counted_append, counted_append, counted_append, counted_attemptEvents, counted_increment,
      counted_wait, hrest.counted_eq, List.length_cons]
    cases c <;> simp [adds, Nat.add_comm]

/-- By induction on the attempts that are left, one step of `path_attempts` at a time. -/
theorem went_attempts {w : Writer} {body : Body} {documents sent left : ℕ} {d : Delivery}
    {es : List (Event (Site Body))} (h : (w.attempts body documents sent left).Path es (.done d)) :
    ∃ refusals last, Went body documents sent left es d refusals last := by
  induction left generalizing sent es with
  | zero =>
    obtain ⟨reply, ⟨hok, rfl, rfl⟩ | ⟨e, he, -, rfl, rfl⟩ | ⟨-, more, rest, hleft, -⟩⟩ :=
      path_attempts h
    · exact ⟨[], reply, went_taken hok⟩
    · exact ⟨[], reply, went_givenUp he⟩
    · exact nomatch hleft
  | succ left ih =>
    obtain ⟨reply, ⟨hok, rfl, rfl⟩ | ⟨e, -, hleft, -⟩ | ⟨hno, more, rest, hleft, hrest, rfl⟩⟩ :=
      path_attempts h
    · exact ⟨[], reply, went_taken hok⟩
    · exact nomatch hleft
    · obtain rfl := Nat.succ.inj hleft
      obtain ⟨refusals, last, hwent⟩ := ih hrest
      exact ⟨reply :: refusals, last, hwent.retried hno⟩

/-- The answers of a script that attempts have had. -/
theorem Went.replies {body : Body} {documents sent left : ℕ} {es : List (Event (Site Body))}
    {d : Delivery} {refusals : List (Except Error Search.BulkReply)}
    {last : Except Error Search.BulkReply} {script : Script}
    (hwent : Went body documents sent left es d refusals last) (hscript : Follows script es) :
    refusals = (List.range refusals.length).map script ∧ last = script refusals.length := by
  have hreplies : (bulks es).map (·.2) = refusals ++ [last] := by
    rw [hwent.bulks_eq, List.map_map]
    exact List.map_id _
  have hlength : (bulks es).length = refusals.length + 1 := by
    rw [← List.length_map, hreplies, List.length_append, List.length_singleton]
  rw [Follows, hreplies, hlength, List.range_succ, List.map_append] at hscript
  obtain ⟨hinit, hlast⟩ := List.append_inj' hscript rfl
  exact ⟨hinit, List.singleton_inj.mp hlast⟩

/-- How a delivery of a body ends under a script, with the number of its requests. -/
inductive Ends (w : Writer) (script : Script) : ℕ → Delivery → Prop
  | written {n : ℕ} :
      script.firstAccepted = n → n ≤ w.tries → Ends w script n (.written n)
  | exhausted {e : Error} :
      w.tries < script.firstAccepted → judged (script (w.tries - 1)) = .error e →
      Ends w script w.tries (.exhausted w.tries e)

theorem Went.ends {w : Writer} {body : Body} {documents : ℕ} {es : List (Event (Site Body))}
    {d : Delivery} {refusals : List (Except Error Search.BulkReply)} {script : Script}
    (hwent : Went body documents 0 w.furtherAttempts es d refusals (script refusals.length))
    (hrefusals : refusals = (List.range refusals.length).map script) :
    Ends w script (refusals.length + 1) d ∧ d.isWritten = accepted (script refusals.length) := by
  have htries := w.furtherAttempts_add_one
  have hbefore : ∀ i < refusals.length, accepted (script i) = false := by
    intro i hi
    refine hwent.refused _ ?_
    rw [hrefusals]
    exact List.mem_map_of_mem (List.mem_range.mpr hi)
  have hd := hwent.outcome_eq
  rw [Nat.zero_add] at hd
  cases hlast : accepted (script refusals.length) with
  | true =>
    rw [outcome_of_accepted hlast] at hd
    rw [hd]
    exact ⟨.written (Script.firstAccepted_eq hbefore hlast)
      (htries ▸ Nat.succ_le_succ hwent.atMost), rfl⟩
  | false =>
    -- the last answer refuses, too, so all attempts are used up and nothing was accepted before
    have hall : ∀ i < w.tries, accepted (script i) = false := by
      intro i hi
      rcases Nat.lt_or_eq_of_le (show i ≤ refusals.length by rw [hwent.usedUp hlast]; omega) with
        hlt | rfl
      · exact hbefore i hlt
      · exact hlast
    obtain ⟨e, he⟩ := exists_judged_of_not_accepted hlast
    rw [outcome_of_judged he] at hd
    have hlength : refusals.length + 1 = w.tries := by rw [hwent.usedUp hlast, htries]
    rw [hd, hlength]
    refine ⟨.exhausted (Script.lt_firstAccepted hall) ?_, rfl⟩
    rw [← hlength, Nat.add_sub_cancel]
    exact he

section

variable {w : Writer} {script : Script} {n : ℕ} {d : Delivery}

theorem Ends.requests (h : Ends w script n d) : (n : ℕ∞) = min script.firstAccepted w.tries := by
  cases h with
  | written hfirst hle => rw [hfirst, min_eq_left (Nat.cast_le.mpr hle)]
  | exhausted hlt => exact (min_eq_right hlt.le).symm

theorem Ends.eq_written_iff (h : Ends w script n d) (k : ℕ) :
    d = .written k ↔ script.firstAccepted = k ∧ k ≤ w.tries := by
  cases h with
  | written hfirst hle =>
    rw [hfirst, Delivery.written.injEq, Nat.cast_inj]
    exact ⟨fun hk => ⟨hk, hk ▸ hle⟩, fun hk => hk.1⟩
  | exhausted hlt =>
    refine ⟨nofun, fun ⟨hfirst, hle⟩ => ?_⟩
    rw [hfirst, Nat.cast_lt] at hlt
    exact absurd hle (Nat.not_le.mpr hlt)

theorem Ends.eq_exhausted_iff (h : Ends w script n d) (k : ℕ) (e : Error) :
    d = .exhausted k e ↔ (w.tries : ℕ∞) < script.firstAccepted ∧ k = w.tries ∧
      judged (script (w.tries - 1)) = .error e := by
  cases h with
  | written hfirst hle =>
    refine ⟨nofun, fun ⟨hlt, _, _⟩ => ?_⟩
    rw [hfirst, Nat.cast_lt] at hlt
    exact absurd hle (Nat.not_le.mpr hlt)
  | exhausted hlt he =>
    rw [he, Delivery.exhausted.injEq, Except.error.injEq]
    exact ⟨fun ⟨hk, hlast⟩ => ⟨hlt, hk.symm, hlast⟩, fun ⟨_, hk, hlast⟩ => ⟨hk.symm, hlast⟩⟩

end

/-- A delivery sends its body until it is accepted or no attempt is left. It reports the number of
    the accepted attempt or the error of the last one, and counts its requests, all of them but the
    first as retries, and its documents or one failure. -/
theorem write_follows [Sendable Body] (w : Writer) (body : Body) (documents : ℕ) {script : Script}
    {h : Handler (Site Body) σ} {s : σ}
    (hscript : Follows script ((w.write body documents).trace h s)) :
    ∃ d, ((w.write body documents).run h s).1 = .ok d ∧
      (Sendable.isEmpty body = true →
        d = .written 0 ∧ (w.write body documents).trace h s = []) ∧
      (Sendable.isEmpty body = false → ∃ n : ℕ,
        (n : ℕ∞) = min script.firstAccepted w.tries ∧
        bulks ((w.write body documents).trace h s) =
          (List.range n).map (fun i => (body, script i)) ∧
        (∀ k : ℕ, d = .written k ↔ script.firstAccepted = k ∧ k ≤ w.tries) ∧
        (∀ (k : ℕ) (e : Error), d = .exhausted k e ↔
          (w.tries : ℕ∞) < script.firstAccepted ∧ k = w.tries ∧
            judged (script (w.tries - 1)) = .error e) ∧
        ∀ (m : Metrics) (c : Counter), m.after ((w.write body documents).trace h s) c =
          m c + UInt64.ofNat (adds documents n d.isWritten c)) := by
  have hpath := path_trace h (w.write body documents) s
  obtain ⟨d, hd⟩ : ∃ d, ((w.write body documents).run h s).1 = .ok d := by
    cases ho : ((w.write body documents).run h s).1 with
    | ok d => exact ⟨d, rfl⟩
    | error f =>
      rw [ho] at hpath
      exact (neverStops_write w body documents _ f hpath).elim
  rw [hd] at hpath
  -- from here on the trace is what counts, and not the surroundings that it came from
  generalize (w.write body documents).trace h s = es at hscript hpath ⊢
  refine ⟨d, hd, ?_, ?_⟩
  · intro hempty
    rw [write, if_pos hempty] at hpath
    obtain ⟨rfl, rfl⟩ := path_done.mp hpath
    exact ⟨rfl, rfl⟩
  · intro hempty
    rw [write, if_neg (by rw [hempty]; exact Bool.false_ne_true)] at hpath
    obtain ⟨refusals, last, hwent⟩ := went_attempts hpath
    obtain ⟨hrefusals, rfl⟩ := hwent.replies hscript
    obtain ⟨hends, htaken⟩ := hwent.ends hrefusals
    refine ⟨_, hends.requests, ?_, hends.eq_written_iff, hends.eq_exhausted_iff, fun m c => ?_⟩
    · rw [hwent.bulks_eq, List.range_succ, List.map_append, List.map_append]
      nth_rewrite 1 [hrefusals]
      rw [List.map_map]
      rfl
    · rw [Metrics.after_apply, hwent.counted_eq, htaken]

/-- A body with the document of ledger 7. -/
def sampleBody : BulkBody := [⟨"live-ledger", some "7", .object [("seq", .nat 7)]⟩]

/-- A world that refuses ledger 7 twice. -/
def sampleWorld : Memory.World :=
  Memory.World.refuse { history := [], index := { deployment := "live" } } 7 2

/-- What that world answers. -/
def sampleScript : Script := fun i =>
  if i < 2 then .error (.index (.transport "connection refused")) else .ok { items := 1 }

theorem write_follows_sample :
    Follows sampleScript
        ((write ⟨3, 100⟩ sampleBody 1).trace Memory.World.answer sampleWorld) ∧
      ((write ⟨3, 100⟩ sampleBody 1).run Memory.World.answer sampleWorld).1 = .ok (.written 3) ∧
      ∀ c, ((write ⟨3, 100⟩ sampleBody 1).run Memory.World.answer sampleWorld).2.metrics c =
        UInt64.ofNat (adds 1 3 true c) := by
  have hscript : Follows sampleScript
      ((write ⟨3, 100⟩ sampleBody 1).trace Memory.World.answer sampleWorld) := by
    unfold Follows
    cbv
  obtain ⟨d, hd, -, hsent⟩ := write_follows ⟨3, 100⟩ sampleBody 1 hscript
  obtain ⟨n, hn, -, hwritten, -, hcount⟩ := hsent rfl
  have hfirst : sampleScript.firstAccepted = (3 : ℕ) :=
    Script.firstAccepted_eq (fun i hi => by rw [sampleScript, if_pos hi]; rfl) rfl
  obtain rfl : d = .written 3 := (hwritten 3).mpr ⟨hfirst, by decide⟩
  obtain rfl : n = 3 := by
    rw [hfirst, min_eq_left (Nat.cast_le.mpr (by decide)), Nat.cast_inj] at hn
    exact hn
  refine ⟨hscript, hd, fun c => ?_⟩
  rw [Memory.World.metrics_run, hcount]
  exact UInt64.zero_add _

end Writer

end LedgerSearch
