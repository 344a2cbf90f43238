import Mathlib
import LedgerSearch.Proofs.Program.Trace
import LedgerSearch.Proofs.Serialize.Emission

/-
  What a batch asks on its way: its rows of the source, then the index to take one body, again and
  again until it is taken whole or the retries are used up.
-/

namespace LedgerSearch

open Program

/-! ## Bulk requests and questions to the source -/

namespace Event

variable {Body : Type}

/-- A bulk request and its answer. -/
def bulk? : Event (Site Body) → Option (Body × Except Error Search.BulkReply)
  | ⟨.index (.bulk body), reply⟩ => some (body, reply)
  | _ => none

/-- A question to the source and its answer. -/
def history? : Event (Site Body) → Option (Σ q : HistoryQuery, Except Error q.Reply)
  | ⟨.history q, reply⟩ => some ⟨q, reply⟩
  | _ => none

end Event

section

variable {Body : Type}

/-- The bulk requests of a trace with their answers. -/
def bulks (es : List (Event (Site Body))) : List (Body × Except Error Search.BulkReply) :=
  es.filterMap Event.bulk?

/-- The questions of a trace to the source with their answers. -/
def questions (es : List (Event (Site Body))) : List (Σ q : HistoryQuery, Except Error q.Reply) :=
  es.filterMap Event.history?

theorem bulks_append (es fs : List (Event (Site Body))) : bulks (es ++ fs) = bulks es ++ bulks fs :=
  List.filterMap_append

theorem questions_append (es fs : List (Event (Site Body))) :
    questions (es ++ fs) = questions es ++ questions fs := List.filterMap_append

end

/-- Whether an answer says that every document was taken. -/
def accepted : Except Error Search.BulkReply → Bool
  | .ok r => r.isSuccess
  | .error _ => false

namespace Writer

variable {Body : Type}

/-- What one answer to a bulk request comes to. -/
def judged (reply : Except Error Search.BulkReply) : Except Error Unit :=
  match reply with
  | .ok r => if r.isSuccess then .ok () else .error (rejection r)
  | .error e => .error e

theorem judged_eq_ok {reply : Except Error Search.BulkReply} :
    judged reply = .ok () ↔ accepted reply = true := by
  cases reply with
  | ok r =>
    simp only [judged, accepted]
    by_cases hr : r.isSuccess = true
    · simp [hr]
    · simp [hr]
  | error e => simp [judged, accepted]

/-- The events of one attempt. -/
def attemptEvents (body : Body) (reply : Except Error Search.BulkReply) :
    List (Event (Site Body)) :=
  [⟨.increment .bulkRequests 1, ()⟩, ⟨.index (.bulk body), reply⟩]

/-- A failed attempt adds its own request to those of the further ones. -/
theorem bulks_retried (body : Body) (reply : Except Error Search.BulkReply) (ms : Nat)
    (es : List (Event (Site Body))) :
    bulks (attemptEvents body reply ++ ([⟨.increment .bulkRetries 1, ()⟩] ++
      ([⟨.wait ms, ()⟩] ++ es))) = (body, reply) :: bulks es := by
  rw [bulks_append, bulks_append, bulks_append]
  rfl

theorem path_attempt {body : Body} {r : Except Error Unit} {es : List (Event (Site Body))}
    (h : (attempt body).Path es (.done r)) :
    ∃ reply, es = attemptEvents body reply ∧ r = judged reply := by
  obtain ⟨es₁, es₂, u, rfl, h₁, h₂⟩ := path_andThen.mp h
  obtain rfl := Site.path_increment.mp h₁
  obtain ⟨reply, rest, rfl, h₃⟩ := path_ask.mp h₂
  obtain ⟨rfl, rfl⟩ := path_done.mp h₃
  exact ⟨reply, rfl, by cases reply <;> rfl⟩

theorem not_accepted_of_judged {reply : Except Error Search.BulkReply} {e : Error}
    (h : judged reply = .error e) : accepted reply = false := by
  rw [← Bool.not_eq_true]
  intro hok
  rw [judged_eq_ok.mpr hok] at h
  exact nomatch h

/-- A result that is counted when it is known. -/
theorem path_counted {c : Counter} {n : Nat} {d d' : Delivery} {es : List (Event (Site Body))}
    (h : ((Site.increment c n).andThen fun _ => .done d').Path es (.done d)) :
    d = d' ∧ es = [⟨.increment c n, ()⟩] := by
  obtain ⟨es₁, es₂, u, rfl, h₁, h₂⟩ := path_andThen.mp h
  obtain rfl := Site.path_increment.mp h₁
  obtain ⟨rfl, rfl⟩ := path_done.mp h₂
  exact ⟨rfl, rfl⟩

/-- What an attempt leads to: the body is taken, or it is refused and given up, or it is refused and
    sent again. -/
theorem path_attempts {w : Writer} {body : Body} {documents sent left : Nat} {d : Delivery}
    {es : List (Event (Site Body))}
    (h : (w.attempts body documents sent left).Path es (.done d)) :
    ∃ reply, (accepted reply = true ∧ d = .written (sent + 1) ∧
        es = attemptEvents body reply ++ [⟨.increment .documentsWritten documents, ()⟩]) ∨
      (∃ e, judged reply = .error e ∧ left = 0 ∧ d = .exhausted (sent + 1) e ∧
        es = attemptEvents body reply ++ [⟨.increment .bulkFailures 1, ()⟩]) ∨
      (accepted reply = false ∧ ∃ more rest, left = more + 1 ∧
        (w.attempts body documents (sent + 1) more).Path rest (.done d) ∧
        es = attemptEvents body reply ++ ([⟨.increment .bulkRetries 1, ()⟩] ++
          ([⟨.wait (w.delay (sent + 1)), ()⟩] ++ rest))) := by
  cases left with
  | zero =>
    obtain ⟨es₁, es₂, r, rfl, h₁, h₂⟩ := path_andThen.mp h
    obtain ⟨reply, rfl, rfl⟩ := path_attempt h₁
    refine ⟨reply, ?_⟩
    cases hr : judged reply with
    | ok u =>
      rw [hr] at h₂
      obtain ⟨rfl, rfl⟩ := path_counted h₂
      exact .inl ⟨judged_eq_ok.mp hr, rfl, rfl⟩
    | error e =>
      rw [hr] at h₂
      obtain ⟨rfl, rfl⟩ := path_counted h₂
      exact .inr (.inl ⟨e, rfl, rfl, rfl, rfl⟩)
  | succ more =>
    obtain ⟨es₁, es₂, r, rfl, h₁, h₂⟩ := path_andThen.mp h
    obtain ⟨reply, rfl, rfl⟩ := path_attempt h₁
    refine ⟨reply, ?_⟩
    cases hr : judged reply with
    | ok u =>
      rw [hr] at h₂
      obtain ⟨rfl, rfl⟩ := path_counted h₂
      exact .inl ⟨judged_eq_ok.mp hr, rfl, rfl⟩
    | error e =>
      rw [hr] at h₂
      obtain ⟨es₃, es₄, u, rfl, h₃, h₄⟩ := path_andThen.mp h₂
      obtain ⟨es₅, es₆, u', rfl, h₅, h₆⟩ := path_andThen.mp h₄
      obtain rfl := Site.path_increment.mp h₃
      obtain rfl := Site.path_wait.mp h₅
      exact .inr (.inr ⟨not_accepted_of_judged hr, more, es₆, rfl, h₆, rfl⟩)

/-- How attempts go, after `sent` earlier ones and with `left` more where they fail: each is refused
    until one is taken or none is left. -/
inductive Attempted (w : Writer) (body : Body) (documents : Nat) :
    Nat → Nat → List (Event (Site Body)) → Delivery → Prop
  | taken {sent left : Nat} {reply : Except Error Search.BulkReply} :
      accepted reply = true →
      Attempted w body documents sent left
        (attemptEvents body reply ++ [⟨.increment .documentsWritten documents, ()⟩])
        (.written (sent + 1))
  | exhausted {sent : Nat} {reply : Except Error Search.BulkReply} (e : Error) :
      accepted reply = false →
      Attempted w body documents sent 0
        (attemptEvents body reply ++ [⟨.increment .bulkFailures 1, ()⟩]) (.exhausted (sent + 1) e)
  | retried {sent left : Nat} {reply : Except Error Search.BulkReply}
      {es : List (Event (Site Body))} {d : Delivery} :
      accepted reply = false → Attempted w body documents (sent + 1) left es d →
      Attempted w body documents sent (left + 1)
        (attemptEvents body reply ++ ([⟨.increment .bulkRetries 1, ()⟩] ++
          ([⟨.wait (w.delay (sent + 1)), ()⟩] ++ es))) d

theorem attempts_attempted {w : Writer} {body : Body} {documents sent left : Nat} {d : Delivery}
    {es : List (Event (Site Body))}
    (h : (w.attempts body documents sent left).Path es (.done d)) :
    Attempted w body documents sent left es d := by
  induction left generalizing sent es with
  | zero =>
    obtain ⟨reply, ⟨hok, rfl, rfl⟩ | ⟨e, he, -, rfl, rfl⟩ | ⟨-, more, rest, hleft, -⟩⟩ :=
      path_attempts h
    · exact .taken hok
    · exact .exhausted e (not_accepted_of_judged he)
    · exact nomatch hleft
  | succ left ih =>
    obtain ⟨reply, ⟨hok, rfl, rfl⟩ | ⟨e, -, hleft, -⟩ | ⟨hno, more, rest, hleft, hrest, rfl⟩⟩ :=
      path_attempts h
    · exact .taken hok
    · exact nomatch hleft
    · obtain rfl := Nat.succ.inj hleft
      exact .retried hno (ih hrest)

/-- What the deliveries of one body leave in a trace: requests for that body only, the last of which
    is accepted exactly where the body was written, and no other one. -/
structure Delivered (body : Body) (left : Nat) (es : List (Event (Site Body))) (d : Delivery) :
    Prop where
  questions : questions es = []
  bulk : ∀ b ∈ bulks es, b.1 = body
  sends : bulks es ≠ []
  written : d.isWritten = true ↔ ∃ b ∈ bulks es, accepted b.2 = true
  exhausted : d.isWritten = false → (bulks es).length = left + 1
  /-- Only what was not accepted is sent again. -/
  again : (bulks es).Pairwise fun b _ => accepted b.2 = false

theorem Attempted.delivered {w : Writer} {body : Body} {documents sent left : Nat} {d : Delivery}
    {es : List (Event (Site Body))} (h : Attempted w body documents sent left es d) :
    Delivered body left es d := by
  induction h with
  | @taken sent left reply hok =>
    have hbulks : bulks (attemptEvents body reply ++ [⟨.increment .documentsWritten documents, ()⟩]) =
        [(body, reply)] := rfl
    refine ⟨rfl, ?_, ?_, ?_, (fun h => nomatch h), ?_⟩ <;> rw [hbulks]
    · simp
    · simp
    · simp [hok, Delivery.isWritten]
    · exact List.pairwise_singleton _ _
  | @exhausted sent reply e hno =>
    have hbulks : bulks (attemptEvents body reply ++ [⟨.increment .bulkFailures 1, ()⟩]) =
        [(body, reply)] := rfl
    refine ⟨rfl, ?_, ?_, ?_, fun _ => ?_, ?_⟩ <;> rw [hbulks]
    · simp
    · simp
    · simp [hno, Delivery.isWritten]
    · rfl
    · exact List.pairwise_singleton _ _
  | @retried sent left reply es d hno _ ih =>
    refine ⟨?_, ?_, ?_, ?_, fun hd => ?_, ?_⟩
    · rw [questions_append, questions_append, questions_append, ih.questions]
      rfl
    all_goals rw [bulks_retried]
    · exact List.forall_mem_cons.mpr ⟨rfl, ih.bulk⟩
    · exact List.cons_ne_nil _ _
    · rw [ih.written]
      simp [hno]
    · rw [List.length_cons, ih.exhausted hd]
    · exact List.pairwise_cons.mpr ⟨fun _ _ => hno, ih.again⟩

/-- An empty body is written without a request, any other one by attempts. -/
theorem path_write [Sendable Body] {w : Writer} {body : Body} {documents : Nat} {d : Delivery}
    {es : List (Event (Site Body))} (h : (w.write body documents).Path es (.done d)) :
    (Sendable.isEmpty body = true ∧ es = [] ∧ d = .written 0) ∨
      (Sendable.isEmpty body = false ∧ Delivered body w.furtherAttempts es d) := by
  rw [write] at h
  cases he : Sendable.isEmpty body with
  | true =>
    rw [if_pos he] at h
    obtain ⟨rfl, rfl⟩ := path_done.mp h
    exact .inl ⟨rfl, rfl, rfl⟩
  | false =>
    rw [if_neg (by rw [he]; exact Bool.false_ne_true)] at h
    exact .inr ⟨rfl, (attempts_attempted h).delivered⟩

theorem write_spec [Sendable Body] {w : Writer} {body : Body} {documents : Nat} {d : Delivery}
    {es : List (Event (Site Body))} (h : (w.write body documents).Path es (.done d)) :
    questions es = [] ∧ (∀ b ∈ bulks es, b.1 = body) ∧
      (d.isWritten = true ↔ Sendable.isEmpty body = true ∨ ∃ b ∈ bulks es, accepted b.2 = true) := by
  rcases path_write h with ⟨he, rfl, rfl⟩ | ⟨he, hd⟩
  · exact ⟨rfl, (fun _ hb => nomatch hb), fun _ => .inl he, fun _ => rfl⟩
  · refine ⟨hd.questions, hd.bulk, ?_⟩
    rw [hd.written, he]
    simp

end Writer

/-! ## Batches -/

/-- The question for the ledgers of a batch, answered with these. -/
def Selection.answered (s : Selection) (rows : List LedgerRow) :
    Σ q : HistoryQuery, Except Error q.Reply :=
  match s with
  | .range start count => ⟨.ledgersInRange start count, .ok rows⟩
  | .seqs ss => ⟨.ledgersBySeq ss, .ok rows⟩

namespace Exporter

theorem path_account {Body : Type} {result : Serialized × Outcome Unit} {s : Serialized}
    {es : List (Event (Site Body))} (h : (account result).Path es (.done s)) :
    questions es = [] ∧ bulks es = [] ∧ result = (s, .ok ()) := by
  obtain ⟨out, outcome⟩ := result
  obtain ⟨es₁, es₂, u, rfl, h₁, h₂⟩ := path_andThen.mp h
  obtain ⟨es₃, es₄, v, rfl, h₃, h₄⟩ := path_andThen.mp h₂
  obtain ⟨es₅, es₆, w, rfl, h₅, h₆⟩ := path_andThen.mp h₄
  obtain rfl := Site.path_increment.mp h₁
  obtain rfl := Site.path_increment.mp h₃
  obtain ⟨rfl, rfl⟩ := path_ofOutcome.mp h₅
  obtain ⟨rfl, rfl⟩ := path_done.mp h₆
  exact ⟨rfl, rfl, rfl⟩

theorem path_serialize {Body : Type} {ledgers : List LedgerRow} {s : Serialized}
    {es : List (Event (Site Body))} (h : (serialize ledgers).Path es (.done s)) :
    ∃ txs fees, questions es = [⟨.transactionsOf (ledgers.map (·.seq)), .ok txs⟩,
        ⟨.feesOf (ledgers.map (·.seq)), .ok fees⟩] ∧
      bulks es = [] ∧ Serialized.ofLedgers ⟨txs, fees⟩ ledgers = (s, .ok ()) := by
  obtain ⟨es₁, es₂, txs, rfl, h₁, h₂⟩ := path_andThen.mp h
  obtain ⟨es₃, es₄, fees, rfl, h₃, h₄⟩ := path_andThen.mp h₂
  obtain rfl := Site.path_history.mp h₁
  obtain rfl := Site.path_history.mp h₃
  obtain ⟨hq, hb, hs⟩ := path_account h₄
  refine ⟨txs, fees, ?_, ?_, hs⟩
  · rw [questions_append, questions_append, hq]
    rfl
  · rw [bulks_append, bulks_append, hb]
    rfl

theorem path_fetch {Body : Type} {s : Selection} {rows : List LedgerRow}
    {es : List (Event (Site Body))} (h : (fetch s).Path es (.done rows)) :
    questions es = [s.answered rows] ∧ bulks es = [] := by
  cases s with
  | range start count =>
    obtain rfl := Site.path_history.mp h
    exact ⟨rfl, rfl⟩
  | seqs seqs =>
    obtain rfl := Site.path_history.mp h
    exact ⟨rfl, rfl⟩

/-- What a batch leaves in a trace where it reports `report`. -/
inductive Batched (e : Exporter) (s : Selection) (es : List (Event (Site BulkBody))) :
    BatchReport → Prop
  | absent :
      questions es = [s.answered []] → bulks es = [] →
      Batched e s es { written := true }
  | fetched {rows : List LedgerRow} {txs : List TransactionRow} {fees : List FeeRow}
      {out : Serialized} {written : Bool} :
      rows ≠ [] →
      questions es = [s.answered rows,
        ⟨.transactionsOf (rows.map (·.seq)), .ok txs⟩, ⟨.feesOf (rows.map (·.seq)), .ok fees⟩] →
      Serialized.ofLedgers ⟨txs, fees⟩ rows = (out, .ok ()) →
      (∀ b ∈ bulks es, b.1 = BulkBody.ofDocuments e.deployment out.documents) →
      (written = true ↔ out.documents = [] ∨ ∃ b ∈ bulks es, accepted b.2 = true) →
      Batched e s es
        { fetched := rows.map (·.seq), stats := out.stats, unindexable := out.unindexable, written }

theorem isEmpty_ofDocuments (deployment : String) (ds : List Document) :
    Sendable.isEmpty (BulkBody.ofDocuments deployment ds) = true ↔ ds = [] := by
  cases ds with
  | nil => exact ⟨fun _ => rfl, fun _ => rfl⟩
  | cons d ds => exact ⟨(fun h => nomatch h), (fun h => nomatch h)⟩

theorem batched {e : Exporter} {s : Selection} {report : BatchReport}
    {es : List (Event (Site BulkBody))} (h : (e.batch s).Path es (.done report)) :
    Batched e s es report := by
  obtain ⟨es₁, es₂, rows, rfl, h₁, h₂⟩ := path_andThen.mp h
  obtain ⟨hq₁, hb₁⟩ := path_fetch h₁
  cases rows with
  | nil =>
    obtain ⟨rfl, rfl⟩ := path_done.mp h₂
    rw [List.append_nil]
    exact .absent hq₁ hb₁
  | cons row rest =>
    obtain ⟨es₃, es₄, out, rfl, h₃, h₄⟩ := path_andThen.mp h₂
    obtain ⟨es₅, es₆, d, rfl, h₅, h₆⟩ := path_andThen.mp h₄
    obtain ⟨rfl, rfl⟩ := path_done.mp h₆
    obtain ⟨txs, fees, hq, hb, hout⟩ := path_serialize h₃
    obtain ⟨hq', hb', hw⟩ := Writer.write_spec h₅
    have hbulks : bulks (es₁ ++ (es₃ ++ (es₅ ++ []))) = bulks es₅ := by
      rw [bulks_append, bulks_append, hb₁, hb, List.append_nil]
      rfl
    refine .fetched (List.cons_ne_nil _ _) ?_ hout ?_ ?_
    · rw [questions_append, questions_append, hq₁, hq, List.append_nil, hq']
      rfl
    · rw [hbulks]
      exact hb'
    · rw [hbulks, hw, isEmpty_ofDocuments]

end Exporter

/-! ## Requests that are made once -/

/-- The trace asks the index for no window. -/
def NoWindows (es : List (Event (Site BulkBody))) : Prop :=
  ∀ ev ∈ es, ∀ lo hi, ev.request ≠ .index (.seqsIn lo hi)

theorem Writer.exists_path_attempt {Body : Type} (body : Body) (reply : Except Error Search.BulkReply) :
    (attempt body).Path (attemptEvents body reply) (.done (judged reply)) := by
  refine path_andThen.mpr ⟨[_], _, (), rfl, Site.path_increment.mpr rfl,
    path_ask.mpr ⟨reply, [], rfl, ?_⟩⟩
  cases reply <;> exact .here _

theorem Writer.exists_path_write {w : Writer} (hw : w.retries = 0) {body : BulkBody}
    (hne : body ≠ []) (documents : Nat) (reply : Except Error Search.BulkReply) :
    ∃ es d, (w.write body documents).Path es (.done d) ∧ questions es = [] ∧
      bulks es = [(body, reply)] ∧ d.isWritten = accepted reply ∧ NoWindows es := by
  have hempty : Sendable.isEmpty body = false := by
    cases body with
    | nil => exact absurd rfl hne
    | cons _ _ => rfl
  have hleft : w.furtherAttempts = 0 := by rw [furtherAttempts, hw]; rfl
  have hattempt := exists_path_attempt body reply
  rw [write, if_neg (by rw [hempty]; exact Bool.false_ne_true), hleft, attempts]
  cases hj : judged reply with
  | ok u =>
    refine ⟨attemptEvents body reply ++ ([⟨.increment .documentsWritten documents, ()⟩] ++ []),
      .written 1, path_andThen.mpr ⟨_, _, _, rfl, hattempt, ?_⟩, rfl, rfl, ?_, ?_⟩
    · rw [hj]
      exact path_andThen.mpr ⟨_, _, (), rfl, Site.path_increment.mpr rfl, .here _⟩
    · exact (judged_eq_ok.mp hj).symm
    · simp [NoWindows, attemptEvents]
  | error err =>
    refine ⟨attemptEvents body reply ++ ([⟨.increment .bulkFailures 1, ()⟩] ++ []),
      .exhausted 1 err, path_andThen.mpr ⟨_, _, _, rfl, hattempt, ?_⟩, rfl, rfl, ?_, ?_⟩
    · rw [hj]
      exact path_andThen.mpr ⟨_, _, (), rfl, Site.path_increment.mpr rfl, .here _⟩
    · cases hok : accepted reply with
      | false => rfl
      | true => rw [judged_eq_ok.mpr hok] at hj; exact nomatch hj
    · simp [NoWindows, attemptEvents]

/-- The events of ledgers made into documents. -/
def Exporter.serializeEvents (rows : List LedgerRow) (txs : List TransactionRow)
    (fees : List FeeRow) (out : Serialized) : List (Event (Site BulkBody)) :=
  [⟨.history (.transactionsOf (rows.map (·.seq))), .ok txs⟩,
    ⟨.history (.feesOf (rows.map (·.seq))), .ok fees⟩,
    ⟨.increment .ledgersSerialized out.stats.ledgers, ()⟩,
    ⟨.increment .unindexableLedgers out.unindexable.length, ()⟩]

theorem Exporter.exists_path_serialize {rows : List LedgerRow} {txs : List TransactionRow}
    {fees : List FeeRow} {out : Serialized}
    (hout : Serialized.ofLedgers ⟨txs, fees⟩ rows = (out, .ok ())) :
    (serialize rows).Path (serializeEvents rows txs fees out) (.done out) := by
  refine path_andThen.mpr ⟨[_], _, txs, rfl, Site.path_history.mpr rfl, path_andThen.mpr
    ⟨[_], _, fees, rfl, Site.path_history.mpr rfl, ?_⟩⟩
  rw [hout]
  exact path_andThen.mpr ⟨[_], _, (), rfl, Site.path_increment.mpr rfl, path_andThen.mpr
    ⟨[_], [], (), rfl, Site.path_increment.mpr rfl, .here _⟩⟩

theorem Exporter.exists_path_fetch (s : Selection) (rows : List LedgerRow) :
    ∃ es : List (Event (Site BulkBody)), (fetch s).Path es (.done rows) ∧
      questions es = [s.answered rows] ∧ bulks es = [] ∧ NoWindows es := by
  cases s with
  | range start count => exact ⟨_, Site.path_history.mpr rfl, rfl, rfl, by simp [NoWindows]⟩
  | seqs seqs => exact ⟨_, Site.path_history.mpr rfl, rfl, rfl, by simp [NoWindows]⟩

/-- A batch whose ledgers have documents, of which the only request gets the answer `reply`. -/
theorem Exporter.exists_path_selection {e : Exporter} (he : e.writer.retries = 0) (s : Selection)
    {rows : List LedgerRow} {txs : List TransactionRow} {fees : List FeeRow} {out : Serialized}
    (hrows : rows ≠ []) (hout : Serialized.ofLedgers ⟨txs, fees⟩ rows = (out, .ok ()))
    (hdocs : out.documents ≠ []) (reply : Except Error Search.BulkReply) :
    ∃ es, (e.batch s).Path es (.done
        { fetched := rows.map (·.seq), stats := out.stats, unindexable := out.unindexable,
          written := accepted reply }) ∧
      questions es = [s.answered rows,
        ⟨.transactionsOf (rows.map (·.seq)), .ok txs⟩, ⟨.feesOf (rows.map (·.seq)), .ok fees⟩] ∧
      bulks es = [(BulkBody.ofDocuments e.deployment out.documents, reply)] ∧ NoWindows es := by
  have hbody : BulkBody.ofDocuments e.deployment out.documents ≠ [] := by
    simpa [BulkBody.ofDocuments] using hdocs
  obtain ⟨asked, hfetch, hqa, hba, hna⟩ := exists_path_fetch s rows
  obtain ⟨es, d, hwrite, hq, hb, hd, hn⟩ :=
    Writer.exists_path_write he hbody out.stats.documents reply
  refine ⟨asked ++ (serializeEvents rows txs fees out ++ (es ++ [])),
    path_andThen.mpr ⟨_, _, rows, rfl, hfetch, ?_⟩, ?_, ?_, ?_⟩
  · cases rows with
    | nil => exact absurd rfl hrows
    | cons row rest =>
      rw [← hd]
      exact path_andThen.mpr ⟨_, _, out, rfl, exists_path_serialize hout,
        path_andThen.mpr ⟨_, _, d, rfl, hwrite, .here _⟩⟩
  · rw [questions_append, questions_append, questions_append, hqa, hq]
    rfl
  · rw [bulks_append, bulks_append, bulks_append, hba, hb]
    rfl
  · simp only [NoWindows, List.mem_append, serializeEvents, List.mem_cons, List.not_mem_nil,
      or_false] at hna hn ⊢
    rintro ev (hev | (rfl | rfl | rfl | rfl) | hev)
    · exact hna ev hev
    all_goals first | exact hn ev hev | nofun

theorem Exporter.exists_path_batch {e : Exporter} (he : e.writer.retries = 0) (seqs : List UInt32)
    {rows : List LedgerRow} {txs : List TransactionRow} {fees : List FeeRow} {out : Serialized}
    (hrows : rows ≠ []) (hout : Serialized.ofLedgers ⟨txs, fees⟩ rows = (out, .ok ()))
    (hdocs : out.documents ≠ []) (reply : Except Error Search.BulkReply) :
    ∃ es, (e.batch (.seqs seqs)).Path es (.done
        { fetched := rows.map (·.seq), stats := out.stats, unindexable := out.unindexable,
          written := accepted reply }) ∧
      questions es = [⟨.ledgersBySeq seqs, .ok rows⟩,
        ⟨.transactionsOf (rows.map (·.seq)), .ok txs⟩, ⟨.feesOf (rows.map (·.seq)), .ok fees⟩] ∧
      bulks es = [(BulkBody.ofDocuments e.deployment out.documents, reply)] ∧ NoWindows es :=
  exists_path_selection he (.seqs seqs) hrows hout hdocs reply

end LedgerSearch
