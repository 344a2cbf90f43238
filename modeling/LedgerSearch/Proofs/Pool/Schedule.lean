import Mathlib
import LedgerSearch.Proofs.Delivery.Endings
import LedgerSearch.Proofs.Pool.CallSteps

/-
  Calls that share the workers of one pool, in whatever order things happen. No more units are at
  work than the pool has workers (`Schedule.running_le`), nothing goes on for ever
  (`Floor.wellFounded`), and where nothing can go on every call has returned
  (`Schedule.returned_of_stuck`).
-/

namespace LedgerSearch

open Program

namespace Pool

variable {Body α : Type}

/-! ## Schedules -/

/-- A pool with the calls that share it. -/
structure Floor (Body α : Type) where
  /-- Workers without a unit. -/
  free : Nat
  calls : List (Call Body α)

/-- How many workers the act takes. -/
def Act.takes : Act Body α → Nat
  | .unit _ .begins => 1
  | .unit _ (.asks _) | .unit _ (.ends _) | .unit _ .leaves | .unit _ .cancelled => 0
  | .joined _ | .returns _ => 0

/-- How many workers the act frees. -/
def Act.frees : Act Body α → Nat
  | .unit _ .leaves | .unit _ .cancelled => 1
  | .unit _ .begins | .unit _ (.asks _) | .unit _ (.ends _) => 0
  | .joined _ | .returns _ => 0

namespace Floor

/-- Calls of which no unit has begun, on a pool that was asked for so many workers. -/
def start (wanted : Nat) (calls : List (List (Program (Site Body) α))) : Floor Body α where
  free := workersFor wanted
  calls := calls.map .start

/-- The units at work. -/
def running (f : Floor Body α) : Nat := (f.calls.map fun c => c.units.countP (·.isWorking)).sum

/-- The workers that have a unit. -/
def occupied (f : Floor Body α) : Nat := (f.calls.map fun c => c.units.countP (·.hasWorker)).sum

/-- Something happens in one of the calls; a unit begins only where a worker is free. -/
inductive Step : Floor Body α → Nat × Act Body α → Floor Body α → Prop
  | act {f : Floor Body α} {k : Nat} {a : Act Body α} {c c' : Call Body α} :
      f.calls[k]? = some c → c.Step a c' → a.takes ≤ f.free →
      Step f (k, a) ⟨f.free - a.takes + a.frees, f.calls.set k c'⟩

end Floor

/-- One thing after the other, each in the call of that number. -/
inductive Schedule : Floor Body α → List (Nat × Act Body α) → Floor Body α → Prop
  | refl (f : Floor Body α) : Schedule f [] f
  | step {f f' f'' : Floor Body α} {e : Nat × Act Body α} {log : List (Nat × Act Body α)} :
      f.Step e f' → Schedule f' log f'' → Schedule f (e :: log) f''

/-- What happened in one call. -/
def callLog (k : Nat) (log : List (Nat × Act Body α)) : List (Act Body α) :=
  log.filterMap fun e => if e.1 = k then some e.2 else none

theorem callLog_cons (k : Nat) (e : Nat × Act Body α) (log : List (Nat × Act Body α)) :
    callLog k (e :: log) = (if e.1 = k then [e.2] else []) ++ callLog k log := by
  by_cases hk : e.1 = k <;> simp [callLog, hk]

section

variable {f f' f'' : Floor Body α} {e : Nat × Act Body α} {log log' : List (Nat × Act Body α)}
  {k : Nat}

theorem Schedule.trans (h : Schedule f log f') (h' : Schedule f' log' f'') :
    Schedule f (log ++ log') f'' := by
  induction h with
  | refl => exact h'
  | step hstep _ ih => exact .step hstep (ih h')

/-- What one act is to a call. -/
theorem Floor.Step.call {c : Call Body α} (h : f.Step e f') (hk : f.calls[k]? = some c) :
    ∃ c', f'.calls[k]? = some c' ∧ c.Run (if e.1 = k then [e.2] else []) c' := by
  cases h with
  | @act j a c₀ c₁ hj hstep _ =>
    have hlt := (List.getElem?_eq_some_iff.mp hk).1
    by_cases hjk : j = k
    · subst hjk
      obtain rfl := Option.some.inj (hj.symm.trans hk)
      refine ⟨c₁, List.getElem?_set_self hlt, ?_⟩
      rw [if_pos rfl]
      exact .step hstep (.refl c₁)
    · refine ⟨c, (List.getElem?_set_ne hjk).trans hk, ?_⟩
      rw [if_neg hjk]
      exact .refl c

/-- What happened on the floor is to each call a run of its own. -/
theorem Schedule.call {c : Call Body α} (h : Schedule f log f') (hk : f.calls[k]? = some c) :
    ∃ c', f'.calls[k]? = some c' ∧ c.Run (callLog k log) c' := by
  induction h generalizing c with
  | refl => exact ⟨c, hk, .refl c⟩
  | @step f f₁ f₂ e log hstep _ ih =>
    obtain ⟨c₁, hk₁, hfirst⟩ := hstep.call hk
    obtain ⟨c₂, hk₂, hrest⟩ := ih hk₁
    refine ⟨c₂, hk₂, ?_⟩
    rw [callLog_cons]
    exact Call.run_append.mpr ⟨c₁, hfirst, hrest⟩

/-! ## Workers -/

theorem sum_map_set {β : Type} {l : List β} {i : Nat} {a b : β} (g : β → Nat)
    (hi : l[i]? = some a) : ((l.set i b).map g).sum + g a = (l.map g).sum + g b := by
  obtain ⟨hlt, rfl⟩ := List.getElem?_eq_some_iff.mp hi
  rw [((List.set_perm_cons_eraseIdx hlt b).map g).sum_eq,
    ← ((List.getElem_cons_eraseIdx_perm hlt).map g).sum_eq, List.map_cons, List.map_cons,
    List.sum_cons, List.sum_cons]
  omega

theorem countP_set {units : List (Stage Body α)} {i : Nat} {s : Stage Body α}
    (hi : units[i]? = some s) (s' : Stage Body α) :
    (units.set i s').countP (·.hasWorker) + s.hasWorker.toNat =
      units.countP (·.hasWorker) + s'.hasWorker.toNat := by
  obtain ⟨hlt, rfl⟩ := List.getElem?_eq_some_iff.mp hi
  rw [(List.set_perm_cons_eraseIdx hlt s').countP_eq,
    ← (List.getElem_cons_eraseIdx_perm hlt).countP_eq, List.countP_cons, List.countP_cons]
  cases s'.hasWorker <;> cases units[i].hasWorker <;> simp +arith

/-- A unit has a worker from its beginning until it leaves it or is cancelled. -/
theorem Call.Step.countP_hasWorker {c c' : Call Body α} {a : Act Body α} (h : c.Step a c') :
    c'.units.countP (·.hasWorker) + a.frees = c.units.countP (·.hasWorker) + a.takes := by
  cases h with
  | begins _ hp => exact countP_set hp _
  | works hs hd hstep =>
    cases hstep with
    | begins => exact hd.elim
    | asks | ends => exact Nat.add_right_cancel (m := 1) (countP_set hs _)
    | leaves => exact countP_set hs _
    | cancelled => exact hd.elim
  | joined | lost | returns => rfl
  | cancelled _ _ hp => exact countP_set hp _

/-- A worker is free or has a unit. -/
theorem Floor.Step.workers (h : f.Step e f') : f'.free + f'.occupied = f.free + f.occupied := by
  cases h with
  | @act k a c c' hk hstep hfree =>
    have hset := sum_map_set (b := c') (fun c => c.units.countP (·.hasWorker)) hk
    have hcount := hstep.countP_hasWorker
    simp only [Floor.occupied]
    omega

theorem Schedule.workers (h : Schedule f log f') :
    f'.free + f'.occupied = f.free + f.occupied := by
  induction h with
  | refl => rfl
  | step hstep _ ih => rw [ih, hstep.workers]

theorem Floor.occupied_eq_zero (f : Floor Body α) :
    f.occupied = 0 ↔ ∀ c ∈ f.calls, ∀ s ∈ c.units, s.hasWorker = false := by
  rw [occupied, List.sum_eq_zero_iff, List.forall_mem_map]
  simp only [List.countP_eq_zero, Bool.not_eq_true]

theorem Floor.occupied_start (wanted : Nat) (calls : List (List (Program (Site Body) α))) :
    (start wanted calls).occupied = 0 := by
  refine (occupied_eq_zero _).mpr fun c hc s hs => ?_
  obtain ⟨units, -, rfl⟩ := List.mem_map.mp hc
  obtain ⟨p, -, rfl⟩ := List.mem_map.mp hs
  rfl

theorem Floor.running_le_occupied (f : Floor Body α) : f.running ≤ f.occupied := by
  refine List.sum_le_sum fun c _ => List.countP_mono_left fun s _ hs => ?_
  cases s with
  | working => rfl
  | queued | leaving | ended | cancelled => exact nomatch hs

variable {wanted : Nat} {calls : List (List (Program (Site Body) α))}

theorem Schedule.workers_start (h : Schedule (.start wanted calls) log f) :
    f.free + f.occupied = workersFor wanted := by
  rw [h.workers, Floor.occupied_start]
  rfl

/-- At no point are more units at work than there are workers. -/
theorem Schedule.running_le (h : Schedule (.start wanted calls) log f) :
    f.running ≤ workersFor wanted := by
  have hle := f.running_le_occupied
  have hworkers := h.workers_start
  omega

/-! ## Ends -/

/-- Something happens to the second unit and makes it the first. -/
def Stage.Follows (s' s : Stage Body α) : Prop := ∃ d, s.Step d s'

theorem Stage.acc_of_step {s : Stage Body α} (h : ∀ d s', s.Step d s' → Acc Stage.Follows s') :
    Acc Stage.Follows s := by
  refine ⟨_, fun s' hs => ?_⟩
  obtain ⟨d, hstep⟩ := hs
  exact h d s' hstep

theorem Stage.acc_ended (o : Outcome α) : Acc Stage.Follows (.ended o : Stage Body α) := by
  refine acc_of_step fun d s hstep => ?_
  cases hstep

theorem Stage.acc_cancelled : Acc Stage.Follows (.cancelled : Stage Body α) := by
  refine acc_of_step fun d s hstep => ?_
  cases hstep

theorem Stage.acc_leaving (o : Outcome α) : Acc Stage.Follows (.leaving o : Stage Body α) := by
  refine acc_of_step fun d s hstep => ?_
  cases hstep with
  | leaves => exact acc_ended o

theorem Stage.acc_working (p : Program (Site Body) α) :
    Acc Stage.Follows (.working p : Stage Body α) := by
  induction p with
  | done | stop =>
    refine acc_of_step fun d s hstep => ?_
    cases hstep with
    | ends => exact acc_leaving _
    | cancelled => exact acc_cancelled
  | ask r next ih =>
    refine acc_of_step fun d s hstep => ?_
    cases hstep with
    | asks reply => exact ih reply
    | ends => exact acc_leaving _
    | cancelled => exact acc_cancelled

/-- A unit does not go on for ever. -/
theorem Stage.wellFounded : WellFounded (Stage.Follows : Stage Body α → Stage Body α → Prop) := by
  refine ⟨fun s => ?_⟩
  cases s with
  | queued p =>
    refine acc_of_step fun d s hstep => ?_
    cases hstep with
    | begins => exact acc_working p
  | working p => exact acc_working p
  | leaving o => exact acc_leaving o
  | ended o => exact acc_ended o
  | cancelled => exact acc_cancelled

/-- One member of a list that goes down takes the list down. -/
theorem cutExpand_set {β : Type} {r : β → β → Prop} {l : List β} {i : Nat} {a b : β}
    (hi : l[i]? = some a) (h : r b a) :
    Relation.CutExpand r (l.set i b : Multiset β) (l : Multiset β) := by
  obtain ⟨hlt, rfl⟩ := List.getElem?_eq_some_iff.mp hi
  refine ⟨{b}, l[i], fun x hx => by rwa [Multiset.mem_singleton.mp hx], ?_⟩
  rw [Multiset.coe_eq_coe.mpr (List.set_perm_cons_eraseIdx hlt b),
    ← Multiset.coe_eq_coe.mpr (List.getElem_cons_eraseIdx_perm hlt), ← Multiset.cons_coe,
    ← Multiset.cons_coe, ← Multiset.singleton_add, ← Multiset.singleton_add]
  abel

/-- What is left of a call: its units, then the results to take. -/
def Call.rest (c : Call Body α) : Multiset (Stage Body α) × Nat :=
  (c.units, if c.result.isNone then c.awaited.length + 1 else 0)

/-- Less is left of a call. -/
def Call.Less : Multiset (Stage Body α) × Nat → Multiset (Stage Body α) × Nat → Prop :=
  Prod.Lex (Relation.CutExpand Stage.Follows) (· < ·)

theorem Call.Step.less {c c' : Call Body α} {a : Act Body α} (h : c.Step a c') :
    Call.Less c'.rest c.rest := by
  cases h with
  | begins _ hp => exact .left _ _ (cutExpand_set hp ⟨_, .begins _⟩)
  | works hs _ hstep => exact .left _ _ (cutExpand_set hs ⟨_, hstep⟩)
  | joined hr _ hi _ =>
    refine .right _ ?_
    have hpos := List.length_pos_of_mem hi
    rw [hr, Option.isNone_none, if_pos rfl, if_pos rfl, List.length_erase_of_mem hi]
    omega
  | lost hr _ _ _ =>
    refine .right _ ?_
    rw [hr, Option.isNone_none, if_pos rfl]
    exact Nat.succ_pos _
  | returns hr _ _ =>
    refine .right _ ?_
    rw [hr, Option.isNone_none, if_pos rfl]
    exact Nat.succ_pos _
  | cancelled _ _ hp => exact .left _ _ (cutExpand_set hp ⟨_, .cancelled _⟩)

/-- Nothing goes on for ever, whatever the requests are answered and whichever call goes on. -/
theorem Floor.wellFounded : WellFounded fun f' f : Floor Body α => ∃ e, f.Step e f' := by
  have hless : WellFounded (@Call.Less Body α) :=
    Stage.wellFounded.cutExpand.prod_lex Nat.lt_wfRel.wf
  refine Subrelation.wf (r := InvImage (Relation.CutExpand Call.Less)
    fun f : Floor Body α => (f.calls.map Call.rest : Multiset _)) ?_
    (InvImage.wf _ hless.cutExpand)
  intro f' f h
  obtain ⟨e, hstep⟩ := h
  cases hstep with
  | @act k a c c' hk hc _ =>
    rw [InvImage, List.map_set]
    exact cutExpand_set (by rw [List.getElem?_map, hk]; rfl) hc.less

/-! ## Progress -/

theorem Floor.Step.orderly (h : f.Step e f') (hf : ∀ c ∈ f.calls, c.Orderly) :
    ∀ c ∈ f'.calls, c.Orderly := by
  cases h with
  | act hk hstep _ =>
    intro c hc
    rcases List.mem_or_eq_of_mem_set hc with hc | rfl
    · exact hf c hc
    · exact (hf _ (List.mem_of_getElem? hk)).step hstep

theorem Schedule.orderly (h : Schedule (.start wanted calls) log f) :
    ∀ c ∈ f.calls, c.Orderly := by
  have hstart : ∀ c ∈ (Floor.start wanted calls).calls, c.Orderly := by
    intro c hc
    obtain ⟨units, -, rfl⟩ := List.mem_map.mp hc
    exact Call.orderly_start units
  generalize Floor.start wanted calls = f₀ at h hstart
  induction h with
  | refl => exact hstart
  | step hstep _ ih => exact ih (hstep.orderly hstart)

/-- A unit that has a worker can go on. -/
theorem Stage.exists_work {s : Stage Body α} (hs : s.hasWorker = true) :
    ∃ d s', d.IsWork ∧ s.Step d s' := by
  cases s with
  | working p =>
    cases p with
    | done a => exact ⟨.ends (.ok a), _, trivial, .ends rfl⟩
    | stop e => exact ⟨.ends (.error e), _, trivial, .ends rfl⟩
    | ask r next => exact ⟨.asks ⟨r, (Site.failing r ()).1⟩, _, trivial, .asks _⟩
  | leaving o => exact ⟨.leaves, _, trivial, .leaves o⟩
  | queued | ended | cancelled => exact nomatch hs

theorem takes_of_work {i : Nat} {d : Deed Body α} (hd : d.IsWork) : (Act.unit i d).takes = 0 := by
  cases d with
  | asks | ends | leaves => rfl
  | begins | cancelled => exact hd.elim

/-- A unit that has begun in a call that has not returned is over if no unit of the call has a
    worker. -/
theorem Call.Orderly.ended_of_idle {c : Call Body α} (h : c.Orderly) (hr : c.result = none)
    (hidle : ∀ s ∈ c.units, s.hasWorker = false) {i : Nat} (hi : i < c.begun) :
    ∃ o, c.units[i]? = some (.ended o) := by
  have hlt := Nat.lt_of_lt_of_le hi h.begun_le
  have hs : c.units[i]? = some c.units[i] := List.getElem?_eq_getElem hlt
  have hmem := List.mem_of_getElem? hs
  cases hstage : c.units[i] with
  | queued p => exact absurd (hstage ▸ hs) (h.begun i hi p)
  | working p => exact nomatch hstage ▸ hidle _ hmem
  | leaving o => exact nomatch hstage ▸ hidle _ hmem
  | ended o => exact ⟨o, hstage ▸ hs⟩
  | cancelled => exact absurd (hstage ▸ hmem) (h.cancelled hr)

/-- A call that has not returned can go on where a worker is free and none of its units has one. -/
theorem Call.Orderly.exists_step {c : Call Body α} (h : c.Orderly) (hr : c.result = none)
    (hidle : ∀ s ∈ c.units, s.hasWorker = false) : ∃ a c', c.Step a c' ∧ a.takes ≤ 1 := by
  by_cases hlt : c.begun < c.units.length
  · obtain ⟨p, hp⟩ := h.queued c.begun (Nat.le_refl _) hlt
    exact ⟨_, _, .begins hr hp, Nat.le_refl _⟩
  have hbegun : c.begun = c.units.length := Nat.le_antisymm h.begun_le (Nat.not_lt.mp hlt)
  cases hawaited : c.awaited with
  | nil => exact ⟨_, _, .returns hr hbegun hawaited, Nat.zero_le _⟩
  | cons i rest =>
    have hi : i ∈ c.awaited := hawaited ▸ List.mem_cons_self
    obtain ⟨o, hs⟩ := h.ended_of_idle hr hidle (h.awaited_lt i hi)
    match o, hs with
    | .ok a, hs => exact ⟨_, _, .joined (r := .ok a) hr hbegun hi hs, Nat.zero_le _⟩
    | .error (.error e), hs => exact ⟨_, _, .joined (r := .error e) hr hbegun hi hs, Nat.zero_le _⟩
    | .error (.overflow o), hs => exact ⟨_, _, .lost hr hbegun hi hs, Nat.zero_le _⟩

theorem Floor.idle_of_stuck (hstuck : ∀ e f', ¬ f.Step e f') {c : Call Body α} (hc : c ∈ f.calls)
    {s : Stage Body α} (hs : s ∈ c.units) : s.hasWorker = false := by
  rw [← Bool.not_eq_true]
  intro hworker
  obtain ⟨k, hk⟩ := List.getElem?_of_mem hc
  obtain ⟨i, hi⟩ := List.getElem?_of_mem hs
  obtain ⟨d, s', hd, hstep⟩ := Stage.exists_work hworker
  exact hstuck _ _ (.act hk (.works hi hd hstep) (by rw [takes_of_work hd]; exact Nat.zero_le _))

/-- Where nothing can go on every call has returned. -/
theorem Schedule.returned_of_stuck (h : Schedule (.start wanted calls) log f)
    (hstuck : ∀ e f', ¬ f.Step e f') {c : Call Body α} (hc : c ∈ f.calls) : c.result ≠ none := by
  intro hr
  have hidle : f.occupied = 0 :=
    f.occupied_eq_zero.mpr fun c hc s hs => f.idle_of_stuck hstuck hc hs
  have hfree : 1 ≤ f.free := by
    have hworkers := h.workers_start
    have hone : 1 ≤ workersFor wanted := Nat.le_max_right _ _
    omega
  obtain ⟨k, hk⟩ := List.getElem?_of_mem hc
  obtain ⟨a, c', hstep, htakes⟩ :=
    (h.orderly c hc).exists_step hr fun s hs => f.idle_of_stuck hstuck hc hs
  exact hstuck _ _ (.act hk hstep (Nat.le_trans htakes hfree))

end

end Pool

end LedgerSearch
