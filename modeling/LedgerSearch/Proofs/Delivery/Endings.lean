import Mathlib
import LedgerSearch.Proofs.Delivery.BatchTrace

/-
  Programs up to their end, whether they are done or stop: the trace of a run, where a sequence of
  programs stops, and the programs that no answer makes stop.
-/

namespace LedgerSearch

namespace Program

variable {I : Interface} {α β σ : Type}

/-- The requests of a run with the answers that the handler gives. -/
def trace (h : Handler I σ) : Program I α → σ → List (Event I)
  | .done _, _ => []
  | .stop _, _ => []
  | .ask r next, s => ⟨r, (h r s).1⟩ :: (next (h r s).1).trace h (h r s).2

/-- A run comes to its outcome by its trace. -/
theorem path_trace (h : Handler I σ) (p : Program I α) (s : σ) :
    p.Path (p.trace h s) (.ofOutcome (p.run h s).1) := by
  induction p generalizing s with
  | done a => exact .here _
  | stop f => exact .here _
  | ask r next ih => exact .ask _ (ih (h r s).1 (h r s).2)

theorem path_done_end {a : α} {o : Outcome α} {es : List (Event I)}
    (h : (.done a : Program I α).Path es (.ofOutcome o)) : es = [] ∧ o = .ok a := by
  cases o with
  | ok b =>
    obtain ⟨rfl, rfl⟩ := path_done.mp h
    exact ⟨rfl, rfl⟩
  | error f => exact nomatch h

theorem path_stop_end {f : Failure} {o : Outcome α} {es : List (Event I)}
    (h : (.stop f : Program I α).Path es (.ofOutcome o)) : es = [] ∧ o = .error f := by
  cases o with
  | ok b => exact (not_path_stop h).elim
  | error f' =>
    cases h
    exact ⟨rfl, rfl⟩

/-- A sequence of programs is in the first one as long as that is not done, and then in the
    second. -/
theorem path_andThen_cases {p : Program I α} {f : α → Program I β} {q : Program I β}
    {es : List (Event I)} (h : (p.andThen f).Path es q) :
    (∃ p', p.Path es p' ∧ (∀ a, p' ≠ .done a) ∧ q = p'.andThen f) ∨
      ∃ es₁ es₂ a, es = es₁ ++ es₂ ∧ p.Path es₁ (.done a) ∧ (f a).Path es₂ q := by
  induction p generalizing es with
  | done a => exact .inr ⟨[], es, a, rfl, .here _, h⟩
  | stop e =>
    cases h
    exact .inl ⟨.stop e, .here _, nofun, rfl⟩
  | ask r next ih =>
    cases h with
    | here => exact .inl ⟨.ask r next, .here _, nofun, rfl⟩
    | ask reply h =>
      rcases ih reply h with ⟨p', hp, hopen, hq⟩ | ⟨es₁, es₂, a, rfl, h₁, h₂⟩
      · exact .inl ⟨p', .ask reply hp, hopen, hq⟩
      · exact .inr ⟨_, es₂, a, rfl, .ask reply h₁, h₂⟩

/-- The answers determine where a program is. -/
theorem Path.rest {p p' q : Program I α} {es fs : List (Event I)} (h : p.Path es p')
    (hq : p.Path (es ++ fs) q) : p'.Path fs q := by
  induction h with
  | here => exact hq
  | ask reply _ ih =>
    cases hq with
    | ask _ hq => exact ih hq

/-- A sequence of programs comes to the end of the first one where that stops, else to the end of
    the second. -/
theorem path_andThen_end {p : Program I α} {f : α → Program I β} {o : Outcome β}
    {es : List (Event I)} (h : (p.andThen f).Path es (.ofOutcome o)) :
    (∃ e, o = .error e ∧ p.Path es (.stop e)) ∨
      ∃ es₁ es₂ a, es = es₁ ++ es₂ ∧ p.Path es₁ (.done a) ∧ (f a).Path es₂ (.ofOutcome o) := by
  rcases path_andThen_cases h with ⟨p', hp, hopen, hq⟩ | h
  · cases p' with
    | done a => exact absurd rfl (hopen a)
    | stop e =>
      cases o with
      | ok b => exact nomatch hq
      | error e' =>
        cases hq
        exact .inl ⟨e, rfl, hp⟩
    | ask r next => cases o <;> exact nomatch hq
  · exact .inr h

/-- Whatever the answers, the program does not stop. -/
def NeverStops (p : Program I α) : Prop := ∀ es f, ¬ p.Path es (.stop f)

theorem neverStops_done (a : α) : NeverStops (.done a : Program I α) := fun _ _ h => nomatch h

theorem neverStops_ask {r : I.Request} {next : I.Reply r → Program I α}
    (h : ∀ reply, (next reply).NeverStops) : NeverStops (.ask r next) := by
  intro es f hstop
  cases hstop with
  | ask reply hrest => exact h reply _ _ hrest

theorem NeverStops.andThen {p : Program I α} {f : α → Program I β} (hp : p.NeverStops)
    (hf : ∀ a, (f a).NeverStops) : (p.andThen f).NeverStops := by
  intro es e hstop
  rcases path_andThen_end (o := .error e) hstop with ⟨e', -, h⟩ | ⟨es₁, es₂, a, -, -, h⟩
  · exact hp _ _ h
  · exact hf a _ _ h

/-- Wherever it is, a program that does not stop can come to its end. -/
theorem NeverStops.exists_path_done {p q : Program I α} {es : List (Event I)} (hp : p.NeverStops)
    (h : p.Path es q) (answer : Handler I σ) (s : σ) :
    ∃ fs a, p.Path (es ++ fs) (.done a) ∧ q.Path fs (.done a) := by
  have hq := path_trace answer q s
  cases ho : (q.run answer s).1 with
  | ok a =>
    rw [ho] at hq
    exact ⟨_, a, h.trans hq, hq⟩
  | error f =>
    rw [ho] at hq
    exact (hp _ f (h.trans hq)).elim

/-- A program that does not stop is done by its trace. -/
theorem NeverStops.exists_run {p : Program I α} (hp : p.NeverStops) (h : Handler I σ) (s : σ) :
    ∃ a, (p.run h s).1 = .ok a ∧ p.Path (p.trace h s) (.done a) := by
  have hpath := path_trace h p s
  cases ho : (p.run h s).1 with
  | ok a =>
    rw [ho] at hpath
    exact ⟨a, rfl, hpath⟩
  | error f =>
    rw [ho] at hpath
    exact (hp _ f hpath).elim

end Program

open Program

/-- Surroundings in which every query fails. -/
def Site.failing {Body : Type} : Handler (Site Body) Unit
  | .history _, s => (.error (.other ""), s)
  | .index _, s => (.error (.other ""), s)
  | .wait _, s => ((), s)
  | .increment _ _, s => ((), s)

/-! ## Deliveries -/

namespace Writer

variable {Body : Type}

theorem neverStops_increment (c : Counter) (n : Nat) :
    (Site.increment c n : Program (Site Body) Unit).NeverStops :=
  neverStops_ask fun _ => neverStops_done ()

theorem neverStops_attempt (body : Body) : (attempt body).NeverStops :=
  (neverStops_increment _ _).andThen fun _ =>
    (neverStops_ask fun _ => neverStops_done _).andThen fun _ => neverStops_done _

/-- What the index answers does not stop a delivery. -/
theorem neverStops_attempts (w : Writer) (body : Body) (documents sent left : Nat) :
    (w.attempts body documents sent left).NeverStops := by
  induction left generalizing sent with
  | zero =>
    refine (neverStops_attempt body).andThen fun r => ?_
    cases r with
    | ok u => exact (neverStops_increment _ _).andThen fun _ => neverStops_done _
    | error e => exact (neverStops_increment _ _).andThen fun _ => neverStops_done _
  | succ left ih =>
    refine (neverStops_attempt body).andThen fun r => ?_
    cases r with
    | ok u => exact (neverStops_increment _ _).andThen fun _ => neverStops_done _
    | error e =>
      refine (neverStops_increment _ _).andThen fun _ => ?_
      exact (neverStops_ask fun _ => neverStops_done ()).andThen fun _ => ih (sent + 1)

theorem neverStops_write [Sendable Body] (w : Writer) (body : Body) (documents : Nat) :
    (w.write body documents).NeverStops := by
  rw [write]
  split
  · exact neverStops_done _
  · exact neverStops_attempts w body documents 0 _

end Writer

namespace Exporter

/-- What is counted of ledgers. -/
def counted {Body : Type} (out : Serialized) : List (Event (Site Body)) :=
  [⟨.increment .ledgersSerialized out.stats.ledgers, ()⟩,
    ⟨.increment .unindexableLedgers out.unindexable.length, ()⟩]

theorem path_account_ok {Body : Type} {out s : Serialized} {es : List (Event (Site Body))}
    (h : (account (out, .ok ())).Path es (.done s)) : es = counted out ∧ s = out := by
  obtain ⟨es₁, es₂, u, rfl, h₁, h₂⟩ := path_andThen.mp h
  obtain ⟨es₃, es₄, v, rfl, h₃, h₄⟩ := path_andThen.mp h₂
  obtain rfl := Site.path_increment.mp h₁
  obtain rfl := Site.path_increment.mp h₃
  obtain ⟨rfl, rfl⟩ := path_done.mp h₄
  exact ⟨rfl, rfl⟩

theorem neverStops_account_ok {Body : Type} (out : Serialized) :
    (account (out, .ok ()) : Program (Site Body) Serialized).NeverStops :=
  (Writer.neverStops_increment _ _).andThen fun _ =>
    (Writer.neverStops_increment _ _).andThen fun _ => neverStops_done out

end Exporter

end LedgerSearch
