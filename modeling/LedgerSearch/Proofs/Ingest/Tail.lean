import Mathlib
import LedgerSearch.Proofs.Delivery.Endings
import LedgerSearch.Proofs.Program.Requests
import LedgerSearch.Proofs.Serialize.BatchContents

/-
  Tails of a source to which ledgers are added above all that it holds. However the writes come out
  and whenever the tail is stopped, it has left no ledger behind: each one up to its cursor was
  written or has no place for its documents (`Tail.follow_leaves_no_hole`).
-/

namespace LedgerSearch

open Program

theorem Exporter.path_serialize_eq {ledgers : List LedgerRow} {s : Serialized}
    {es : List (Event (Site BulkBody))} (h : (serialize ledgers).Path es (.done s)) :
    ∃ txs fees, es = serializeEvents ledgers txs fees s ∧
      Serialized.ofLedgers ⟨txs, fees⟩ ledgers = (s, .ok ()) := by
  obtain ⟨es₁, es₂, txs, rfl, h₁, h₂⟩ := path_andThen.mp h
  obtain ⟨es₃, es₄, fees, rfl, h₃, h₄⟩ := path_andThen.mp h₂
  obtain rfl := Site.path_history.mp h₁
  obtain rfl := Site.path_history.mp h₃
  obtain ⟨-, -, hs⟩ := path_account h₄
  rw [hs] at h₄
  obtain ⟨rfl, -⟩ := path_account_ok h₄
  exact ⟨txs, fees, rfl, hs⟩

/-! ## One step -/

/-- The ledger that the source has answered with as the next one. -/
def Event.next? : Event (Site BulkBody) → Option LedgerRow
  | ⟨.history (.nextLedgerAfter _), .ok row⟩ => row
  | _ => none

namespace Tail

/-- What a step after `after` asks before it sends anything. -/
def asked (after : UInt32) (row : LedgerRow) (rows : Rows) (out : Serialized) :
    List (Event (Site BulkBody)) :=
  ⟨.history (.nextLedgerAfter after), .ok (some row)⟩ ::
    Exporter.serializeEvents [row] rows.transactions rows.fees out

/-- How far a step after `after` is: what it has asked, and the program that is left of it. -/
inductive Reached (e : Exporter) (after : UInt32) :
    List (Event (Site BulkBody)) → Program (Site BulkBody) TailStep → Prop
  | asking {es : List (Event (Site BulkBody))} {q : Program (Site BulkBody) TailStep} :
      bulks es = [] → (∀ s, q ≠ .done s) → Reached e after es q
  | caughtUp : Reached e after [⟨.history (.nextLedgerAfter after), .ok none⟩] (.done .caughtUp)
  | unindexable {row : LedgerRow} {rows : Rows} :
      rows.Overflows row →
      Reached e after (asked after row rows { unindexable := [row.seq] })
        (.done (.unindexable row.seq))
  | sending {row : LedgerRow} {rows : Rows} {out : Serialized} {es rest : List (Event (Site BulkBody))}
      {d : Delivery} {q : Program (Site BulkBody) TailStep} :
      rows.Serializes row out.documents →
      Writer.Delivered (.ofDocuments e.deployment out.documents) e.writer.furtherAttempts
        (es ++ rest) d →
      (∀ s, q ≠ .done s) → Reached e after (asked after row rows out ++ es) q
  | written {row : LedgerRow} {rows : Rows} {out : Serialized} {es : List (Event (Site BulkBody))}
      {d : Delivery} :
      rows.Serializes row out.documents →
      Writer.Delivered (.ofDocuments e.deployment out.documents) e.writer.furtherAttempts es d →
      d.isWritten = true →
      Reached e after (asked after row rows out ++ es)
        (.done (.written row.seq out.stats.documents))
  | failed {row : LedgerRow} {rows : Rows} {out : Serialized} {es : List (Event (Site BulkBody))}
      {d : Delivery} :
      rows.Serializes row out.documents →
      Writer.Delivered (.ofDocuments e.deployment out.documents) e.writer.furtherAttempts es d →
      d.isWritten = false →
      Reached e after (asked after row rows out ++ es) (.done (.failed row.seq))

theorem andThen_ne_done {I : Interface} {α β : Type} {p : Program I α} {f : α → Program I β}
    (h : ∀ a, p ≠ .done a) (b : β) : p.andThen f ≠ .done b := by
  cases p with
  | done a => exact absurd rfl (h a)
  | stop e => exact nofun
  | ask r next => exact nofun

/-- A delivery under way is the first part of a whole one. -/
theorem delivered_of_path {e : Exporter} {out : Serialized} (hne : out.documents ≠ [])
    {q : Program (Site BulkBody) Delivery} {es : List (Event (Site BulkBody))}
    (h : (e.deliver out).Path es q) :
    ∃ rest d, Writer.Delivered (.ofDocuments e.deployment out.documents) e.writer.furtherAttempts
      (es ++ rest) d ∧ ∀ d', q = .done d' → rest = [] ∧ d = d' := by
  obtain ⟨rest, d, hpath, hrest⟩ :=
    (Writer.neverStops_write _ _ _).exists_path_done h Site.failing ()
  rcases Writer.path_write hpath with ⟨hempty, -, -⟩ | ⟨-, hd⟩
  · exact absurd ((Exporter.isEmpty_ofDocuments _ _).mp hempty) hne
  · refine ⟨rest, d, hd, ?_⟩
    rintro d' rfl
    obtain ⟨rfl, rfl⟩ := path_done.mp hrest
    exact ⟨rfl, rfl⟩

theorem reached {e : Exporter} {after : UInt32} {q : Program (Site BulkBody) TailStep}
    {es : List (Event (Site BulkBody))} (h : (step e after).Path es q) : Reached e after es q := by
  rcases path_andThen_cases h with ⟨p, hp, hopen, rfl⟩ | ⟨es₁, es₂, next, rfl, h₁, h₂⟩
  · refine .asking (bulks_eq_nil_of_asks (Site.asks_history fun _ _ => trivial) hp) ?_
    exact andThen_ne_done hopen
  obtain rfl := Site.path_history.mp h₁
  cases next with
  | none =>
    cases h₂
    exact .caughtUp
  | some row =>
  rcases path_andThen_cases h₂ with ⟨p, hp, hopen, rfl⟩ | ⟨es₃, es₄, out, rfl, h₃, h₄⟩
  · refine .asking ?_ (andThen_ne_done hopen)
    rw [bulks_append, bulks_eq_nil_of_asks Exporter.asks_serialize hp]
    rfl
  obtain ⟨txs, fees, rfl, hout⟩ := Exporter.path_serialize_eq h₃
  rcases Serialized.ofLedgers_singleton_cases hout with ⟨hser, -, hnone⟩ | ⟨ho, rfl⟩
  · obtain ⟨doc, rest, hdocs, -⟩ := hser.head
    have hne : out.documents ≠ [] := by rw [hdocs]; exact List.cons_ne_nil _ _
    rw [if_neg (by rw [hnone]; exact Bool.false_ne_true)] at h₄
    rcases path_andThen_cases h₄ with ⟨p, hp, hopen, rfl⟩ | ⟨es₅, es₆, d, rfl, h₅, h₆⟩
    · obtain ⟨rest, d, hd, -⟩ := delivered_of_path hne hp
      exact .sending hser hd (andThen_ne_done hopen)
    · obtain ⟨rest, d', hd, hdone⟩ := delivered_of_path hne h₅
      obtain ⟨rfl, rfl⟩ := hdone d rfl
      rw [List.append_nil] at hd
      cases d' with
      | written attempts =>
        cases h₆
        rw [List.append_nil]
        exact .written hser hd rfl
      | exhausted attempts last =>
        cases h₆
        rw [List.append_nil]
        exact .failed hser hd rfl
  · rw [if_pos (by simp)] at h₄
    cases h₄
    exact .unindexable ho

/-! ## Attempts -/

/-- One step of a tail, or as much of it as was made before the tail was stopped. -/
structure Attempt where
  after : UInt32
  events : List (Event (Site BulkBody))
  /-- What came of the step; nothing where it was given up. -/
  result : Option TailStep

namespace Attempt

/-- The last ledger done after the attempt. -/
def cursor (a : Attempt) : UInt32 :=
  match a.result with
  | some s => s.cursor a.after
  | none => a.after

/-- The step has been made as far as the attempt goes. -/
def Of (t : Tail) (a : Attempt) : Prop :=
  ∃ q, (step t.exporter a.after).Path a.events q ∧ ∀ s, a.result = some s → q = .done s

/-- The source has answered the attempt with this ledger, or with none. -/
def Asked (a : Attempt) (reply : Option LedgerRow) : Prop :=
  a.events.head? = some ⟨.history (.nextLedgerAfter a.after), .ok reply⟩

/-- The ledger that the source has answered with. -/
def ledger? (a : Attempt) : Option LedgerRow := a.events.head?.bind Event.next?

/-- The attempt has got the ledger and its rows. -/
structure Fetched (a : Attempt) (row : LedgerRow) (rows : Rows) : Prop where
  ledger : a.ledger? = some row
  transactions : ⟨.transactionsOf [row.seq], .ok rows.transactions⟩ ∈ questions a.events
  fees : ⟨.feesOf [row.seq], .ok rows.fees⟩ ∈ questions a.events

/-- The request carries the documents of the ledger. -/
def Carries (e : Exporter) (a : Attempt) (row : LedgerRow) (body : BulkBody) : Prop :=
  ∃ rows ds, a.Fetched row rows ∧ rows.Serializes row ds ∧ body = .ofDocuments e.deployment ds

/-- The ledger was sent in a request that was answered as a success. -/
def Writes (e : Exporter) (a : Attempt) (seq : UInt32) : Prop :=
  ∃ row, row.seq = seq ∧ ∃ b ∈ bulks a.events, accepted b.2 = true ∧ a.Carries e row b.1

/-- The ledger was found to have no place for its documents. -/
def PassesOver (a : Attempt) (seq : UInt32) : Prop :=
  a.result = some (.unindexable seq) ∧
    ∃ row rows, row.seq = seq ∧ a.Fetched row rows ∧ rows.Overflows row

/-- What an attempt sends, and what it comes to. -/
structure Tried (e : Exporter) (a : Attempt) : Prop where
  sends : ∀ b ∈ bulks a.events, ∃ row, a.Carries e row b.1
  again : (bulks a.events).Pairwise fun b _ => accepted b.2 = false
  moves : a.cursor = a.after ∨
    ∃ row, a.ledger? = some row ∧ a.cursor = row.seq ∧ (a.Writes e row.seq ∨ a.PassesOver row.seq)
  /-- A step that is made to its end goes on after a ledger that it has written. -/
  writes : ∀ s, a.result = some s → ∀ b ∈ bulks a.events, accepted b.2 = true →
    ∀ row, a.ledger? = some row → a.cursor = row.seq
  failed : ∀ seq, a.result = some (.failed seq) → ∃ row, a.ledger? = some row ∧ row.seq = seq

variable {t : Tail} {a : Attempt}

theorem fetched_asked {after : UInt32} {row : LedgerRow} {rows : Rows} {out : Serialized}
    {es : List (Event (Site BulkBody))} {result : Option TailStep} :
    Fetched ⟨after, asked after row rows out ++ es, result⟩ row rows := by
  refine ⟨rfl, ?_, ?_⟩
  · exact List.mem_cons_of_mem _ List.mem_cons_self
  · exact List.mem_cons_of_mem _ (List.mem_cons_of_mem _ List.mem_cons_self)

theorem bulks_asked_append {after : UInt32} {row : LedgerRow} {rows : Rows} {out : Serialized}
    {es : List (Event (Site BulkBody))} : bulks (asked after row rows out ++ es) = bulks es := by
  rw [bulks_append]
  rfl

/-- What has been sent of the documents of a ledger. -/
theorem sends_of_delivered {e : Exporter} (after : UInt32) (result : Option TailStep)
    {row : LedgerRow} {rows : Rows} {out : Serialized} {es rest : List (Event (Site BulkBody))}
    {d : Delivery} {left : Nat} (hser : rows.Serializes row out.documents)
    (hd : Writer.Delivered (.ofDocuments e.deployment out.documents) left (es ++ rest) d) :
    (∀ b ∈ bulks (asked after row rows out ++ es),
      Carries e ⟨after, asked after row rows out ++ es, result⟩ row b.1) ∧
      (bulks (asked after row rows out ++ es)).Pairwise fun b _ => accepted b.2 = false := by
  have hbulk := hd.bulk
  have hagain := hd.again
  rw [bulks_append] at hbulk hagain
  rw [bulks_asked_append]
  refine ⟨fun b hb => ⟨rows, out.documents, fetched_asked, hser, ?_⟩, ?_⟩
  · exact hbulk b (List.mem_append_left _ hb)
  · exact (List.pairwise_append.mp hagain).1

/-- However far a step is, it has sent nothing but documents of its ledger, and nothing more once
    they were accepted. -/
theorem sends_of_reached {e : Exporter} {after : UInt32} {es : List (Event (Site BulkBody))}
    {q : Program (Site BulkBody) TailStep} (h : Reached e after es q) (result : Option TailStep) :
    (∀ b ∈ bulks es, ∃ row, Carries e ⟨after, es, result⟩ row b.1) ∧
      (bulks es).Pairwise fun b _ => accepted b.2 = false := by
  cases h with
  | asking hb hq =>
    rw [hb]
    exact ⟨nofun, .nil⟩
  | caughtUp => exact ⟨nofun, .nil⟩
  | unindexable ho => exact ⟨nofun, .nil⟩
  | @sending row rows out es rest d q hser hd hq =>
    obtain ⟨hsends, hagain⟩ := sends_of_delivered after result hser hd
    exact ⟨fun b hb => ⟨row, hsends b hb⟩, hagain⟩
  | @written row rows out es d hser hd hw | @failed row rows out es d hser hd hw =>
    rw [← List.append_nil es] at hd
    obtain ⟨hsends, hagain⟩ := sends_of_delivered after result hser hd
    exact ⟨fun b hb => ⟨row, hsends b hb⟩, hagain⟩

/-- A step that is given up has moved nothing. -/
theorem tried_of_reached {e : Exporter} {after : UInt32} {es : List (Event (Site BulkBody))}
    {q : Program (Site BulkBody) TailStep} (h : Reached e after es q) :
    Tried e ⟨after, es, none⟩ := by
  obtain ⟨hsends, hagain⟩ := sends_of_reached h none
  exact ⟨hsends, hagain, .inl rfl, nofun, nofun⟩

/-- A step made to its end moves on where it has written its ledger, or passed over it. -/
theorem tried_of_done {e : Exporter} {after : UInt32} {es : List (Event (Site BulkBody))}
    {s : TailStep} (h : Reached e after es (.done s)) : Tried e ⟨after, es, some s⟩ := by
  obtain ⟨hsends, hagain⟩ := sends_of_reached h (some s)
  cases h with
  | asking hb hq => exact absurd rfl (hq s)
  | caughtUp => exact ⟨hsends, hagain, .inl rfl, fun _ _ => nofun, nofun⟩
  | @unindexable row rows ho =>
    have hfetched : Fetched ⟨after, asked after row rows { unindexable := [row.seq] } ++ [],
        some (.unindexable row.seq)⟩ row rows := fetched_asked
    have hover : PassesOver _ row.seq := ⟨rfl, row, rows, rfl, hfetched, ho⟩
    exact ⟨hsends, hagain, .inr ⟨row, rfl, rfl, .inr hover⟩, fun _ _ => nofun, nofun⟩
  | sending hser hd hq => exact absurd rfl (hq s)
  | @written row rows out es d hser hd hw =>
    obtain ⟨b, hb, hok⟩ := hd.written.mp hw
    rw [← bulks_asked_append] at hb
    obtain ⟨row', hcarries⟩ := hsends b hb
    -- what was sent carries a ledger, which can only be the one that was fetched
    have hrow : row = row' := by
      obtain ⟨rows', ds, hfetched, -, -⟩ := hcarries
      exact Option.some.inj hfetched.ledger
    subst hrow
    refine ⟨hsends, hagain, .inr ⟨row, rfl, rfl, .inl ⟨row, rfl, b, hb, hok, hcarries⟩⟩, ?_, nofun⟩
    intro s' hs' b' hb' hok' row' hrow'
    cases hs'
    cases hrow'
    rfl
  | @failed row rows out es d hser hd hw =>
    refine ⟨hsends, hagain, .inl rfl, ?_, ?_⟩
    · intro s' hs' b hb hok
      rw [bulks_asked_append] at hb
      rw [hd.written.mpr ⟨b, hb, hok⟩] at hw
      exact nomatch hw
    · intro seq hs'
      cases hs'
      exact ⟨row, rfl, rfl⟩

theorem Of.tried (h : a.Of t) : a.Tried t.exporter := by
  obtain ⟨after, es, result⟩ := a
  obtain ⟨q, hpath, hresult⟩ := h
  cases result with
  | none => exact tried_of_reached (reached hpath)
  | some s =>
    obtain rfl : q = .done s := hresult s rfl
    exact tried_of_done (reached hpath)

/-- The first thing that a step asks for is the next ledger. -/
theorem Of.asked (h : a.Of t) {row : LedgerRow} (hrow : a.ledger? = some row) :
    a.Asked (some row) := by
  obtain ⟨after, es, result⟩ := a
  obtain ⟨q, hpath, -⟩ := h
  have hask : ∃ next, step t.exporter after = .ask (.history (.nextLedgerAfter after)) next :=
    ⟨_, rfl⟩
  obtain ⟨next, hnext⟩ := hask
  dsimp only at hpath
  rw [hnext] at hpath
  cases hpath with
  | here => exact nomatch hrow
  | @ask _ _ reply es _ _ =>
    cases reply with
    | error e => exact nomatch hrow
    | ok row' =>
      obtain rfl : row' = some row := hrow
      rfl

end Attempt

/-! ## Runs -/

/-- The wait after a step that did not get further. -/
def pause (t : Tail) (s : TailStep) : List (Event (Site BulkBody)) :=
  if s.mustWait then [⟨.wait t.interval, ()⟩] else []

/-- The attempts of a tail, each after the ledger that the one before has come to. All but the last
    one are made to their ends. -/
inductive Followed (t : Tail) :
    UInt32 → List Attempt → List (Event (Site BulkBody)) → UInt32 → Prop
  | stopped {a : Attempt} :
      a.Of t → a.result = none → Followed t a.after [a] a.events a.after
  | next {a : Attempt} {s : TailStep} {as : List Attempt} {es : List (Event (Site BulkBody))}
      {c : UInt32} :
      a.Of t → a.result = some s → Followed t a.cursor as es c →
      Followed t a.after (a :: as) (a.events ++ (t.pause s ++ es)) c

/-- By induction on the turns: the step under way is an attempt that has got so far. A tail that
    still runs, or has failed, has asked what it would have asked if it had been stopped there. -/
theorem path_turns {t : Tail} {after : UInt32} {n : Nat} {p : Program (Site BulkBody) TailStep}
    {q : Program (Site BulkBody) UInt32} {done es : List (Event (Site BulkBody))}
    (hp : (step t.exporter after).Path done p) (h : (t.turns after p n).Path es q) :
    ∃ as c, Followed t after as (done ++ es) c ∧ ∀ c', q = .done c' → c' = c := by
  -- stopped here, the step under way is the last attempt
  have hstopped : ∀ {after done p}, (step t.exporter after).Path done p →
      Followed t after [⟨after, done, none⟩] (done ++ []) after := by
    intro after done p hp
    rw [List.append_nil]
    exact .stopped (a := ⟨after, done, none⟩) ⟨p, hp, nofun⟩ rfl
  induction n generalizing after p done es with
  | zero =>
    rw [turns] at h
    cases h
    exact ⟨_, after, hstopped hp, fun _ hc => (Program.done.inj hc).symm⟩
  | succ n ih =>
    cases p with
    | stop f =>
      cases h
      exact ⟨_, after, hstopped hp, nofun⟩
    | ask r next =>
      cases h with
      | here => exact ⟨_, after, hstopped hp, nofun⟩
      | ask reply h =>
        obtain ⟨as, c, has, hc⟩ := ih (hp.trans (.ask reply (.here _))) h
        rw [List.append_assoc] at has
        exact ⟨as, c, has, hc⟩
    | done s =>
      -- the attempt is over, and the next one begins where it has led
      have hof : Attempt.Of t ⟨after, done, some s⟩ :=
        ⟨.done s, hp, fun _ hs => congrArg _ (Option.some.inj hs)⟩
      rw [turns] at h
      split at h
      · next hwait =>
        have hpause : t.pause s = [⟨.wait t.interval, ()⟩] := if_pos hwait
        cases h with
        | here => exact ⟨_, after, hstopped hp, nofun⟩
        | ask reply h =>
          obtain ⟨as, c, has, hc⟩ := ih (.here _) h
          have hall := Followed.next hof rfl has
          rw [hpause] at hall
          exact ⟨_, c, hall, hc⟩
      · next hwait =>
        have hpause : t.pause s = [] := if_neg hwait
        obtain ⟨as, c, has, hc⟩ := ih (.here _) h
        have hall := Followed.next hof rfl has
        rw [hpause] at hall
        exact ⟨_, c, hall, hc⟩

/-- A step that is made to its end takes one turn after the other. -/
theorem path_turns_of_step (t : Tail) (after : UInt32) {c : UInt32} {n : Nat} {s : TailStep}
    {p : Program (Site BulkBody) TailStep} {es fs : List (Event (Site BulkBody))}
    (hp : p.Path es (.done s))
    (h : (t.turns (s.cursor after) (step t.exporter (s.cursor after)) n).Path fs (.done c)) :
    ∃ m, (t.turns after p m).Path (es ++ (t.pause s ++ fs)) (.done c) := by
  induction p generalizing es with
  | stop f => exact (not_path_stop hp).elim
  | ask r next ih =>
    obtain ⟨reply, rest, rfl, hrest⟩ := path_ask.mp hp
    obtain ⟨m, hm⟩ := ih reply hrest
    exact ⟨m + 1, .ask reply hm⟩
  | done s' =>
    obtain ⟨rfl, rfl⟩ := path_done.mp hp
    refine ⟨n + 1, ?_⟩
    rw [turns, pause, List.nil_append]
    split
    · exact path_andThen.mpr ⟨_, fs, (), rfl, Site.path_wait.mpr rfl, h⟩
    · exact h

/-- A tail can be stopped anywhere in a step. -/
theorem path_turns_stopped {t : Tail} {after : UInt32} {p q : Program (Site BulkBody) TailStep}
    {es : List (Event (Site BulkBody))} (hp : p.Path es q) :
    ∃ m, (t.turns after p m).Path es (.done after) := by
  induction hp with
  | here p => exact ⟨0, by rw [turns]; exact .here _⟩
  | ask reply _ ih =>
    obtain ⟨m, hm⟩ := ih
    exact ⟨m + 1, .ask reply hm⟩

theorem path_turns_of_steps {t : Tail} {after c : UInt32} {n : Nat}
    {es : List (Event (Site BulkBody))} (h : (t.steps after n).Path es (.done c)) :
    ∃ m, (t.turns after (step t.exporter after) m).Path es (.done c) := by
  induction n generalizing after es with
  | zero =>
    obtain ⟨rfl, rfl⟩ := path_done.mp h
    exact path_turns_stopped (.here _)
  | succ n ih =>
    obtain ⟨es₁, es₂, s, rfl, h₁, h₂⟩ := path_andThen.mp h
    cases hwait : s.mustWait with
    | false =>
      rw [hwait] at h₂
      obtain ⟨m, hm⟩ := ih h₂
      have hpath := path_turns_of_step t after h₁ hm
      rwa [pause, hwait, if_neg Bool.false_ne_true] at hpath
    | true =>
      cases n with
      | zero =>
        rw [hwait] at h₂
        obtain ⟨rfl, hc⟩ := path_done.mp h₂
        -- a run does not wait behind its last step, so the tail is stopped before it waits
        have hstay : s.cursor after = after := by cases s <;> first | rfl | exact nomatch hwait
        rw [List.append_nil, ← hc, hstay]
        exact path_turns_stopped h₁
      | succ n =>
        rw [hwait] at h₂
        obtain ⟨es₃, es₄, u, rfl, h₃, h₄⟩ := path_andThen.mp h₂
        obtain rfl := Site.path_wait.mp h₃
        obtain ⟨m, hm⟩ := ih h₄
        have hpath := path_turns_of_step t after h₁ hm
        rwa [pause, hwait, if_pos rfl] at hpath

/-- So many whole steps are turns of a tail that is stopped after them. -/
theorem path_follow_of_run {t : Tail} {after : Option UInt32} {c : UInt32} {n : Nat}
    {es : List (Event (Site BulkBody))} (h : (t.run after n).Path es (.done c)) :
    ∃ m, (t.follow after m).Path es (.done c) := by
  obtain ⟨resuming, rest, c₀, rfl, h₁, h₂⟩ := path_andThen.mp h
  obtain ⟨m, hm⟩ := path_turns_of_steps h₂
  exact ⟨m, path_andThen.mpr ⟨resuming, rest, c₀, rfl, h₁, hm⟩⟩

/-! ## Sources that grow -/

/-- A request of a tail with its answer, and the ledgers that the source holds then. -/
structure Moment where
  event : Event (Site BulkBody)
  held : Set UInt32

/-- Ledgers are only added above all that are held. -/
def Grows (before after : Set UInt32) : Prop :=
  before ⊆ after ∧ ∀ x ∈ after, x ∉ before → ∀ y ∈ before, y < x

/-- The answer is the lowest ledger held above `c`, or that there is none. -/
def IsNext (held : Set UInt32) (c : UInt32) : Option LedgerRow → Prop
  | some row => IsLeast {x ∈ held | c < x} row.seq
  | none => ∀ x ∈ held, ¬ c < x

/-- The source answers a question for the next ledger with the one that it holds. -/
def Moment.Reliable (m : Moment) : Prop :=
  ∀ c reply, m.event = ⟨.history (.nextLedgerAfter c), .ok reply⟩ → IsNext m.held c reply

theorem Grows.trans {a b c : Set UInt32} (h : Grows a b) (h' : Grows b c) : Grows a c := by
  refine ⟨h.1.trans h'.1, fun x hx hnot y hy => ?_⟩
  by_cases hxb : x ∈ b
  · exact h.2 x hxb hnot y hy
  · exact h'.2 x hx hxb y (h.1 hy)

instance : Trans Grows Grows Grows := ⟨Grows.trans⟩

/-- The lowest ledger above `c` stays the same one. -/
theorem IsNext.of_grows {before after : Set UInt32} {c : UInt32} {row : LedgerRow}
    (h : IsNext before c (some row)) (hg : Grows before after) : IsNext after c (some row) := by
  obtain ⟨⟨hin, hlt⟩, hleast⟩ := h
  refine ⟨⟨hg.1 hin, hlt⟩, fun x hx => ?_⟩
  by_cases hxin : x ∈ before
  · exact hleast ⟨hxin, hx.2⟩
  · exact UInt32.le_of_lt (hg.2 x hx.1 hxin _ hin)

theorem IsNext.seq_eq {held : Set UInt32} {c : UInt32} {row : LedgerRow}
    {reply : Option LedgerRow} (h : IsNext held c (some row)) (h' : IsNext held c reply) :
    reply.map (·.seq) = some row.seq := by
  cases reply with
  | none => exact absurd h.1.2 (h' _ h.1.1)
  | some row' => exact congrArg some (UInt32.le_antisymm (h'.2 h.1) (h.2 h'.1))

namespace Followed

variable {t : Tail} {c₀ c : UInt32} {as : List Attempt} {es : List (Event (Site BulkBody))}
  {ms : List Moment} {now : Set UInt32}

theorem of_mem (h : Followed t c₀ as es c) {a : Attempt} (ha : a ∈ as) :
    a.Of t ∧ a.events ⊆ es := by
  induction h with
  | stopped hof _ =>
    obtain rfl := List.mem_singleton.mp ha
    exact ⟨hof, List.Subset.refl _⟩
  | next hof _ _ ih =>
    rcases List.mem_cons.mp ha with rfl | ha
    · exact ⟨hof, List.subset_append_left _ _⟩
    · obtain ⟨hof', hsub⟩ := ih ha
      exact ⟨hof', List.Subset.trans hsub (List.Subset.trans (List.subset_append_right _ _)
        (List.subset_append_right _ _))⟩

theorem exists_cons (h : Followed t c₀ as es c) : ∃ a rest, as = a :: rest ∧ a.after = c₀ := by
  cases h with
  | stopped => exact ⟨_, _, rfl, rfl⟩
  | next => exact ⟨_, _, rfl, rfl⟩

theorem exists_append (h : Followed t c₀ as es c) : ∃ before a, as = before ++ [a] ∧ a.after = c := by
  induction h with
  | stopped => exact ⟨[], _, rfl, rfl⟩
  | next _ _ _ ih =>
    obtain ⟨before, a, rfl, hafter⟩ := ih
    exact ⟨_ :: before, a, rfl, hafter⟩

end Followed

/-- An attempt that has been answered was answered at some moment. -/
theorem Attempt.Asked.exists_moment {a : Attempt} {reply : Option LedgerRow} {ms : List Moment}
    (h : a.Asked reply) (hsub : a.events ⊆ ms.map (·.event)) (hsource : ∀ m ∈ ms, m.Reliable) :
    ∃ m ∈ ms, IsNext m.held a.after reply := by
  obtain ⟨m, hm, hevent⟩ := List.mem_map.mp (hsub (List.mem_of_mem_head? h))
  exact ⟨m, hm, hsource m hm _ _ hevent⟩

namespace Followed

variable {t : Tail} {c₀ c : UInt32} {as : List Attempt} {es : List (Event (Site BulkBody))}
  {ms : List Moment} {now : Set UInt32}

/-- The ledger of an attempt is, to the end, the lowest one above where it started. -/
theorem isNext (h : Followed t c₀ as (ms.map (·.event)) c)
    (hgrows : ∀ m ∈ ms, Grows m.held now) (hsource : ∀ m ∈ ms, m.Reliable) {a : Attempt}
    (ha : a ∈ as) {row : LedgerRow} (hrow : a.ledger? = some row) :
    IsNext now a.after (some row) := by
  obtain ⟨hof, hsub⟩ := h.of_mem ha
  obtain ⟨m, hm, hnext⟩ := (hof.asked hrow).exists_moment hsub hsource
  exact hnext.of_grows (hgrows m hm)

/-- After a failed write the source answers with the same ledger again. -/
theorem retries (h : Followed t c₀ as (ms.map (·.event)) c)
    (hgrows : (ms.map (·.held)).Pairwise Grows) (hsource : ∀ m ∈ ms, m.Reliable) :
    as.IsChain fun a b => ∀ seq, a.result = some (.failed seq) →
      b.after = a.after ∧ ∀ reply, b.Asked reply → reply.map (·.seq) = some seq := by
  obtain ⟨es, hes⟩ : ∃ es, ms.map (·.event) = es := ⟨_, rfl⟩
  rw [hes] at h
  induction h generalizing ms with
  | stopped => exact .singleton _
  | @next a s as es c hof hs hrest ih =>
    obtain ⟨ms₁, ms', rfl, hms₁, hms'⟩ := List.map_eq_append_iff.mp hes
    obtain ⟨ms₂, ms₃, rfl, -, rfl⟩ := List.map_eq_append_iff.mp hms'
    rw [List.map_append, List.map_append, List.pairwise_append] at hgrows
    obtain ⟨-, hgrows', hacross⟩ := hgrows
    have hchain := ih (List.pairwise_append.mp hgrows').2.1
      (fun m hm => hsource m (List.mem_append_right _ (List.mem_append_right _ hm))) rfl
    obtain ⟨b, bs, rfl, hafter⟩ := hrest.exists_cons
    refine .cons_cons (fun seq hfailed => ?_) hchain
    have hstay : a.cursor = a.after := by rw [Attempt.cursor, hfailed]; rfl
    rw [hstay] at hafter
    refine ⟨hafter, fun reply hasked => ?_⟩
    obtain ⟨row, hrow, rfl⟩ := hof.tried.failed seq hfailed
    obtain ⟨m, hm, hnext⟩ := (hof.asked hrow).exists_moment
      (by rw [hms₁]; exact List.Subset.refl _) (fun m hm => hsource m (List.mem_append_left _ hm))
    obtain ⟨m', hm', hnext'⟩ := hasked.exists_moment (hrest.of_mem List.mem_cons_self).2
      (fun m hm => hsource m (List.mem_append_right _ (List.mem_append_right _ hm)))
    rw [hafter] at hnext'
    have hgrow : Grows m.held m'.held := hacross _ (List.mem_map_of_mem hm) _
      (List.mem_append_right _ (List.mem_map_of_mem hm'))
    exact (hnext.of_grows hgrow).seq_eq hnext'

end Followed

/-- The ledgers that attempts have written, in the order of the requests. -/
def written (as : List Attempt) : List UInt32 :=
  as.flatMap fun a => (bulks a.events).filterMap fun b =>
    if accepted b.2 then a.ledger?.map (·.seq) else none

namespace Attempt

variable {t : Tail} {a : Attempt} {now : Set UInt32}

theorem Of.le_cursor (h : a.Of t) (hnext : ∀ row, a.ledger? = some row → IsNext now a.after row) :
    a.after ≤ a.cursor := by
  rcases h.tried.moves with hstay | ⟨row, hrow, hmove, -⟩
  · rw [hstay]
    exact UInt32.le_refl _
  · rw [hmove]
    exact UInt32.le_of_lt (hnext row hrow).1.2

/-- An attempt goes past no ledger but the one that it has written or has no place for. -/
theorem Of.settles (h : a.Of t) (hnext : ∀ row, a.ledger? = some row → IsNext now a.after row)
    {x : UInt32} (hx : x ∈ now) (hlt : a.after < x) (hle : x ≤ a.cursor) :
    a.Writes t.exporter x ∨ a.PassesOver x := by
  rcases h.tried.moves with hstay | ⟨row, hrow, hmove, hsettled⟩
  · rw [hstay] at hle
    exact absurd hlt (UInt32.not_lt.mpr hle)
  · rw [hmove] at hle
    rw [UInt32.le_antisymm hle ((hnext row hrow).2 ⟨hx, hlt⟩)]
    exact hsettled

end Attempt

namespace Followed

variable {t : Tail} {c₀ c : UInt32} {as : List Attempt} {es : List (Event (Site BulkBody))}
  {now : Set UInt32}

/-- No attempt starts below the one before it, or below what that one has come to. -/
theorem ascending (h : Followed t c₀ as es c)
    (hnext : ∀ a ∈ as, ∀ row, a.ledger? = some row → IsNext now a.after row) :
    (∀ a ∈ as, c₀ ≤ a.after) ∧
      as.Pairwise fun a b => a.result ≠ none ∧ a.after ≤ a.cursor ∧ a.cursor ≤ b.after := by
  induction h with
  | stopped =>
    refine ⟨?_, List.pairwise_singleton _ _⟩
    exact List.forall_mem_singleton.mpr (UInt32.le_refl _)
  | next hof hs _ ih =>
    obtain ⟨hfirst, hrest⟩ := List.forall_mem_cons.mp hnext
    obtain ⟨hle, hpairs⟩ := ih hrest
    have hcursor := hof.le_cursor hfirst
    refine ⟨List.forall_mem_cons.mpr ⟨UInt32.le_refl _, fun b hb => ?_⟩,
      List.pairwise_cons.mpr ⟨fun b hb => ⟨?_, hcursor, hle b hb⟩, hpairs⟩⟩
    · exact UInt32.le_trans hcursor (hle b hb)
    · rw [hs]
      exact Option.some_ne_none _

/-- By induction on the attempts: where one starts, what lies between the first cursor and there has
    been settled by those before it. -/
theorem covers (h : Followed t c₀ as es c)
    (hnext : ∀ a ∈ as, ∀ row, a.ledger? = some row → IsNext now a.after row)
    {before rest : List Attempt} {a : Attempt} (hsplit : as = before ++ a :: rest) {x : UInt32}
    (hx : x ∈ now) (hlt : c₀ < x) (hle : x ≤ a.after) :
    ∃ b ∈ before, b.Writes t.exporter x ∨ b.PassesOver x := by
  induction h generalizing before with
  | stopped =>
    cases before with
    | nil =>
      obtain ⟨rfl, -⟩ := List.cons.inj hsplit
      exact absurd hlt (UInt32.not_lt.mpr hle)
    | cons b bs => simp at hsplit
  | @next b s as es c hof hs _ ih =>
    cases before with
    | nil =>
      obtain ⟨rfl, -⟩ := List.cons.inj hsplit
      exact absurd hlt (UInt32.not_lt.mpr hle)
    | cons b' bs =>
      obtain ⟨rfl, htail⟩ := List.cons.inj hsplit
      obtain ⟨hfirst, hrest⟩ := List.forall_mem_cons.mp hnext
      by_cases hcursor : x ≤ b.cursor
      · exact ⟨b, List.mem_cons_self, hof.settles hfirst hx hlt hcursor⟩
      · obtain ⟨b', hb', hsettled⟩ := ih hrest htail (UInt32.not_le.mp hcursor)
        exact ⟨b', List.mem_cons_of_mem _ hb', hsettled⟩

theorem written_ascending (h : Followed t c₀ as es c)
    (hnext : ∀ a ∈ as, ∀ row, a.ledger? = some row → IsNext now a.after row) :
    (written as).Pairwise (· < ·) := by
  have hsent : ∀ {a : Attempt} {x : UInt32} {b : BulkBody × Except Error Search.BulkReply},
      (if accepted b.2 then a.ledger?.map (·.seq) else none) = some x →
      accepted b.2 = true ∧ ∃ row, a.ledger? = some row ∧ row.seq = x := by
    intro a x b hb
    cases hok : accepted b.2 with
    | false => rw [hok] at hb; exact nomatch hb
    | true =>
      rw [hok] at hb
      exact ⟨rfl, Option.map_eq_some_iff.mp hb⟩
  refine List.pairwise_flatMap.mpr ⟨fun a ha => ?_, ?_⟩
  · -- only the last request of an attempt is accepted
    refine List.pairwise_filterMap.mpr ((h.of_mem ha).1.tried.again.imp ?_)
    intro b b' hno x hb
    rw [(hsent hb).1] at hno
    exact nomatch hno
  · refine (h.ascending hnext).2.imp_of_mem ?_
    intro a b ha hb hab x hx y hy
    obtain ⟨hresult, -, hle⟩ := hab
    obtain ⟨sent, hsentmem, hx⟩ := List.mem_filterMap.mp hx
    obtain ⟨sent', -, hy⟩ := List.mem_filterMap.mp hy
    obtain ⟨hok, row, hrow, rfl⟩ := hsent hx
    obtain ⟨-, row', hrow', rfl⟩ := hsent hy
    obtain ⟨s, hs⟩ := Option.ne_none_iff_exists'.mp hresult
    rw [(h.of_mem ha).1.tried.writes s hs sent hsentmem hok row hrow] at hle
    exact UInt32.lt_of_le_of_lt hle (hnext b hb row' hrow').1.2

end Followed

/-- A tail of a source to which ledgers are only added above all that it holds, at any point: its
    cursor has never gone back, and whenever it stood somewhere, each ledger that it had gone past
    was written or has no place for its documents. What it has sent are the documents of the ledger
    it is at, a ledger that it could not write is the next one again, and so the ledgers it has
    written ascend. -/
theorem follow_leaves_no_hole {t : Tail} {after : Option UInt32} {n : Nat} {c₀ : UInt32}
    {resuming : List (Event (Site BulkBody))} {ms : List Moment} {now : Set UInt32}
    {q : Program (Site BulkBody) UInt32}
    (hresume : (resumeAfter after).Path resuming (.done c₀))
    (hrun : (t.follow after n).Path (resuming ++ ms.map (·.event)) q)
    (hgrows : (ms.map (·.held) ++ [now]).IsChain Grows)
    (hsource : ∀ m ∈ ms, m.Reliable) :
    ∃ as c, Followed t c₀ as (ms.map (·.event)) c ∧ (∀ c', q = .done c' → c' = c) ∧
      (as.map (·.after)).Pairwise (· ≤ ·) ∧
      (∀ before a rest, as = before ++ a :: rest → ∀ x ∈ now, c₀ < x → x ≤ a.after →
        ∃ b ∈ before, b.Writes t.exporter x ∨ b.PassesOver x) ∧
      (∀ x ∈ now, c₀ < x → x ≤ c → ∃ a ∈ as, a.Writes t.exporter x ∨ a.PassesOver x) ∧
      (∀ a ∈ as, ∀ b ∈ bulks a.events, ∃ row, a.Carries t.exporter row b.1) ∧
      (as.IsChain fun a b => ∀ seq, a.result = some (.failed seq) →
        b.after = a.after ∧ ∀ reply, b.Asked reply → reply.map (·.seq) = some seq) ∧
      (written as).Pairwise (· < ·) := by
  obtain ⟨as, c, hfollowed, hc⟩ := path_turns (.here _) ((hresume.andThen _).rest hrun)
  obtain ⟨hpairs, -, hlast⟩ := List.pairwise_append.mp hgrows.pairwise
  have hnow : ∀ m ∈ ms, Grows m.held now := fun m hm =>
    hlast _ (List.mem_map_of_mem hm) _ List.mem_cons_self
  have hnext : ∀ a ∈ as, ∀ row, a.ledger? = some row → IsNext now a.after row :=
    fun a ha row hrow => hfollowed.isNext hnow hsource ha hrow
  refine ⟨as, c, hfollowed, hc, ?_, ?_, ?_, fun a ha => (hfollowed.of_mem ha).1.tried.sends,
    hfollowed.retries hpairs hsource, hfollowed.written_ascending hnext⟩
  · exact List.pairwise_map.mpr ((hfollowed.ascending hnext).2.imp fun hab =>
      UInt32.le_trans hab.2.1 hab.2.2)
  · exact fun before a rest hsplit x hx => hfollowed.covers hnext hsplit hx
  · intro x hx hlt hle
    obtain ⟨before, a, rfl, rfl⟩ := hfollowed.exists_append
    obtain ⟨b, hb, hsettled⟩ := hfollowed.covers hnext rfl hx hlt hle
    exact ⟨b, List.mem_append_left _ hb, hsettled⟩

theorem exists_path_step {e : Exporter} (he : e.writer.retries = 0) (after : UInt32)
    {row : LedgerRow} {rows : Rows} {out : Serialized}
    (hout : Serialized.ofLedgers rows [row] = (out, .ok ())) (hplaces : out.unindexable = [])
    (hdocs : out.documents ≠ []) :
    ∃ es, (step e after).Path (asked after row rows out ++ es)
      (.done (.written row.seq out.stats.documents)) ∧ questions es = [] := by
  have hbody : BulkBody.ofDocuments e.deployment out.documents ≠ [] := by
    simpa [BulkBody.ofDocuments] using hdocs
  obtain ⟨es, d, hwrite, hq, -, hd, -⟩ :=
    Writer.exists_path_write he hbody out.stats.documents (.ok {})
  refine ⟨es ++ [], path_andThen.mpr ⟨[_], _, some row, rfl, Site.path_history.mpr rfl,
    path_andThen.mpr ⟨_, _, out, rfl, Exporter.exists_path_serialize hout, ?_⟩⟩, ?_⟩
  · rw [hplaces]
    refine path_andThen.mpr ⟨es, [], d, rfl, hwrite, ?_⟩
    cases d with
    | written attempts => exact .here _
    | exhausted attempts last => cases hd
  · rw [List.append_nil, hq]

/-- A tail can be stopped right after its first step. -/
theorem exists_path_follow (t : Tail) {after : UInt32} {s : TailStep}
    {es : List (Event (Site BulkBody))} (hstep : (step t.exporter after).Path es (.done s))
    (hwait : s.mustWait = false) :
    ∃ n, (t.follow (some after) n).Path es (.done (s.cursor after)) := by
  obtain ⟨n, hn⟩ := path_turns_of_step t after (n := 0) hstep (.here _)
  rw [pause, hwait, if_neg Bool.false_ne_true, List.append_nil, List.append_nil] at hn
  exact ⟨n, path_andThen.mpr ⟨[], es, after, rfl, .here _, hn⟩⟩

/-- The source holds the same ledgers all the time. -/
def steady (held : Set UInt32) (es : List (Event (Site BulkBody))) : List Moment :=
  es.map fun event => ⟨event, held⟩

section

variable (held : Set UInt32) (es : List (Event (Site BulkBody)))

theorem map_event_steady : (steady held es).map (·.event) = es := by
  rw [steady, List.map_map]
  exact List.map_id es

theorem grows_steady : ((steady held es).map (·.held) ++ [held]).IsChain Grows := by
  have hheld : (steady held es).map (·.held) ++ [held] = List.replicate (es.length + 1) held := by
    rw [steady, List.map_map, List.replicate_succ', ← List.map_const']
    rfl
  have hstays : Grows held held := ⟨Set.Subset.refl _, fun x hx hnot => absurd hx hnot⟩
  rw [hheld]
  exact (List.pairwise_replicate.mpr (.inr hstays)).isChain

variable {held es}

/-- It is enough that the questions for the next ledger are answered well. -/
theorem reliable_steady (h : ∀ c reply,
      (⟨.nextLedgerAfter c, .ok reply⟩ : Σ q : HistoryQuery, Except Error q.Reply) ∈ questions es →
        IsNext held c reply) :
    ∀ m ∈ steady held es, m.Reliable := by
  intro m hm c reply hevent
  obtain ⟨event, hmem, rfl⟩ := List.mem_map.mp hm
  obtain rfl := hevent
  exact h c reply (List.mem_filterMap.mpr ⟨_, hmem, rfl⟩)

end

/-- A step asks for the next ledger once. -/
theorem eq_of_mem_questions_asked {after c : UInt32} {row : LedgerRow} {rows : Rows}
    {out : Serialized} {reply : Option LedgerRow}
    (h : (⟨.nextLedgerAfter c, .ok reply⟩ : Σ q : HistoryQuery, Except Error q.Reply) ∈
      questions (asked after row rows out)) : c = after ∧ reply = some row := by
  have hmem : (⟨.nextLedgerAfter c, .ok reply⟩ : Σ q : HistoryQuery, Except Error q.Reply) ∈
      [⟨.nextLedgerAfter after, .ok (some row)⟩, ⟨.transactionsOf [row.seq], _⟩,
        ⟨.feesOf [row.seq], _⟩] := h
  simp only [List.mem_cons, List.not_mem_nil, or_false] at hmem
  rcases hmem with h | h | h
  · cases h
    exact ⟨rfl, rfl⟩
  · exact nomatch h
  · exact nomatch h

/-- A tail after ledger 5 of a source that holds ledger 6, stopped once that is written. -/
theorem follow_leaves_no_hole_six :
    ∃ n, ∃ ms : List Moment, (follow ⟨⟨"live", ⟨0, 0⟩⟩, 1000⟩ (some 5) n).Path
      (ms.map (·.event)) (.done 6) ∧
    ∃ as es, Followed ⟨⟨"live", ⟨0, 0⟩⟩, 1000⟩ 5 as es 6 ∧
      ∃ a ∈ as, a.Writes ⟨"live", ⟨0, 0⟩⟩ 6 ∨ a.PassesOver 6 := by
  obtain ⟨row, -, hseq, hok, hplaces, hlength⟩ : ∃ row ∈ sampleCloses.map (·.ledger),
      row.seq = 6 ∧ (Serialized.ofLedgers sampleRows [row]).2 = .ok () ∧
      (Serialized.ofLedgers sampleRows [row]).1.unindexable = [] ∧
      (Serialized.ofLedgers sampleRows [row]).1.documents.length ≠ 0 := by decide +kernel
  have hdocs : (Serialized.ofLedgers sampleRows [row]).1.documents ≠ [] := fun hnil =>
    hlength (congrArg List.length hnil)
  obtain ⟨es, hstep, hq⟩ := exists_path_step (e := ⟨"live", ⟨0, 0⟩⟩) rfl 5 (Prod.ext rfl hok)
    hplaces hdocs
  rw [hseq] at hstep
  obtain ⟨n, hrun⟩ := exists_path_follow ⟨⟨"live", ⟨0, 0⟩⟩, 1000⟩ hstep rfl
  have hsource : ∀ m ∈ steady {6} (asked 5 row sampleRows
      (Serialized.ofLedgers sampleRows [row]).1 ++ es), m.Reliable := by
    refine reliable_steady fun c reply hmem => ?_
    rw [questions_append, hq, List.append_nil] at hmem
    obtain ⟨rfl, rfl⟩ := eq_of_mem_questions_asked hmem
    refine ⟨⟨hseq, ?_⟩, ?_⟩
    · rw [hseq]
      decide
    · rintro x ⟨rfl, -⟩
      exact UInt32.le_of_eq hseq
  rw [← map_event_steady {6} (asked 5 row sampleRows _ ++ es)] at hrun
  have hresume : (resumeAfter (some 5)).Path ([] : List (Event (Site BulkBody))) (.done 5) :=
    .here _
  obtain ⟨as, c, hfollowed, hc, -, -, hcovers, -⟩ :=
    follow_leaves_no_hole hresume hrun (grows_steady _ _) hsource
  obtain rfl := hc 6 rfl
  exact ⟨n, _, hrun, as, _, hfollowed, hcovers 6 rfl (by decide) (UInt32.le_refl _)⟩

end Tail

end LedgerSearch
