import Mathlib
import LedgerSearch.Proofs.Pool.Returns

/-
  Units that a call gives up. A call that comes upon a lost unit returns at once, and another of its
  units may then be at work and be cancelled. That can happen exactly where a unit may be lost that
  is not the last one, or not the first one on more than one worker (`cancelled_iff`).
-/

namespace LedgerSearch

open Program

namespace Pool

variable {Body α σ : Type}

/-! ## One worker -/

section

variable {c c' : Call Body α} {a : Act Body α} {f f' : Floor Body α} {e : Nat × Act Body α}
  {log : List (Nat × Act Body α)} {wanted k : Nat} {calls : List (List (Program (Site Body) α))}
  {units : List (Program (Site Body) α)}

/-- A unit that is over remains so. -/
theorem Call.Step.ended {i : Nat} {o : Outcome α} (h : c.Step a c')
    (hi : c.units[i]? = some (.ended o)) : c'.units[i]? = some (.ended o) := by
  obtain ⟨s, hs, hrun⟩ := h.unit hi
  rw [hs, hrun.of_ended.2]

/-- One unit more has begun after an act that took a worker, and before the call returned. -/
theorem Call.Step.begun (h : c.Step a c') :
    c'.begun = c.begun ∨ c'.begun = c.begun + 1 ∧ a.takes = 1 ∧ c.result = none := by
  cases h with
  | begins hr _ => exact .inr ⟨rfl, rfl, hr⟩
  | works | joined | lost | returns | cancelled => exact .inl rfl

/-- The units before the one that began last are over. -/
def Call.OneByOne (c : Call Body α) : Prop :=
  ∀ i, i + 1 < c.begun → ∃ o, c.units[i]? = some (.ended o)

/-- On one worker a unit begins once all others are over. -/
theorem Floor.Step.oneByOne (h : f.Step e f') (hone : f.free + f.occupied = 1)
    (horderly : ∀ c ∈ f.calls, c.Orderly) (hf : ∀ c ∈ f.calls, c.OneByOne) :
    ∀ c ∈ f'.calls, c.OneByOne := by
  cases h with
  | @act k a c₀ c₁ hk hstep hfree =>
    intro c hc
    rcases List.mem_or_eq_of_mem_set hc with hc | rfl
    · exact hf c hc
    intro i hi
    have hmem := List.mem_of_getElem? hk
    by_cases hlt : i + 1 < c₀.begun
    · obtain ⟨o, ho⟩ := hf c₀ hmem i hlt
      exact ⟨o, hstep.ended ho⟩
    · obtain hbegun | ⟨hbegun, htakes, hr⟩ := hstep.begun
      · exact absurd (hbegun ▸ hi) hlt
      · have hoccupied : f.occupied = 0 := by omega
        have hlt : i < c₀.begun := by omega
        obtain ⟨o, ho⟩ := (horderly c₀ hmem).ended_of_idle hr
          (f.occupied_eq_zero.mp hoccupied c₀ hmem) hlt
        exact ⟨o, hstep.ended ho⟩

theorem Schedule.oneByOne (h : Schedule (.start wanted calls) log f)
    (hone : workersFor wanted = 1) : ∀ c ∈ f.calls, c.OneByOne := by
  have hworkers : (Floor.start wanted calls).free + (Floor.start wanted calls).occupied = 1 := by
    rw [Floor.occupied_start]
    exact hone
  have horderly := (Schedule.refl (Floor.start wanted calls)).orderly
  have hstart : ∀ c ∈ (Floor.start wanted calls).calls, c.OneByOne := by
    intro c hc i hi
    obtain ⟨units, -, rfl⟩ := List.mem_map.mp hc
    exact absurd hi (Nat.not_lt_zero _)
  generalize Floor.start wanted calls = f₀ at h hworkers horderly hstart
  induction h with
  | refl => exact hstart
  | step hstep _ ih =>
    exact ih (hstep.workers.trans hworkers) (hstep.orderly horderly)
      (hstep.oneByOne hworkers horderly hstart)

/-- Some unit may be lost, and another one of the call may have begun and not be over by then: one
    that begins later, or an earlier one on another worker. -/
def MayGiveUp (wanted : Nat) (units : List (Program (Site Body) α)) : Prop :=
  ∃ i p, units[i]? = some p ∧ ¬ p.Returns ∧
    (i + 1 < units.length ∨ 0 < i ∧ 1 < workersFor wanted)

/-- Where a call has returned and a unit of it is not over, another was lost. -/
theorem Schedule.mayGiveUp (h : Schedule (.start wanted calls) log f) (hk : calls[k]? = some units)
    (hc : f.calls[k]? = some c) {r : Except Error (List α)} (hr : c.result = some r)
    {s : Stage Body α} (hs : s ∈ c.units) (hleft : ∀ o, s ≠ .ended o) :
    r = .error lostWorker ∧ MayGiveUp wanted units := by
  obtain ⟨c', hc', hrun⟩ := h.call_start hk
  obtain rfl := Option.some.inj (hc'.symm.trans hc)
  have hmem := List.mem_of_getElem? hc
  obtain ⟨hbegun, hended | ⟨rfl, o, ho⟩⟩ := (h.orderly c' hmem).returned r hr
  · obtain ⟨o, ho⟩ := hended s hs
    exact absurd ho (hleft o)
  obtain ⟨i, hi⟩ := List.getElem?_of_mem ho
  obtain ⟨j, hj⟩ := List.getElem?_of_mem hs
  obtain ⟨p, hp⟩ := hrun.exists_unit hi
  obtain ⟨es, -, hpath⟩ := hrun.life hp hi
  refine ⟨rfl, i, p, hp, fun hreturns => hreturns es o hpath, ?_⟩
  have hlen := hrun.length_start
  have hilt := (List.getElem?_eq_some_iff.mp hi).1
  have hjlt := (List.getElem?_eq_some_iff.mp hj).1
  have hne : i ≠ j := by
    rintro rfl
    exact hleft _ (Option.some.inj (hj.symm.trans hi))
  rcases Nat.lt_or_gt_of_ne hne with hij | hji
  · exact .inl (by omega)
  · refine .inr ⟨Nat.zero_lt_of_lt hji, ?_⟩
    -- on one worker the earlier unit would be over
    by_contra hmany
    have hone : workersFor wanted = 1 :=
      Nat.le_antisymm (Nat.not_lt.mp hmany) (Nat.le_max_right _ _)
    obtain ⟨o', ho'⟩ := h.oneByOne hone c' hmem j (by omega)
    exact hleft o' (Option.some.inj (hj.symm.trans ho'))

/-! ## A schedule that gives up a unit -/

/-- The next unit of a call begins. -/
theorem Schedule.of_begin {p : Program (Site Body) α} (hk : f.calls[k]? = some c)
    (hr : c.result = none) (hp : c.units[c.begun]? = some (.queued p)) (hfree : 1 ≤ f.free) :
    ∃ log f', Schedule f log f' ∧ f'.free = f.free - 1 ∧ f'.calls[k]? = some (c.beginUnit p) :=
  ⟨_, _, .step (.act hk (.begins hr hp) hfree) (.refl _), rfl,
    List.getElem?_set_self (List.getElem?_eq_some_iff.mp hk).1⟩

/-- The next unit of a call begins and comes to its outcome before anything else happens. -/
theorem Schedule.of_pass {p : Program (Site Body) α} {es : List (Event (Site Body))}
    {o : Outcome α} (hk : f.calls[k]? = some c) (hr : c.result = none)
    (hp : c.units[c.begun]? = some (.queued p)) (hfree : 1 ≤ f.free)
    (hpath : p.Path es (.ofOutcome o)) :
    ∃ log f', Schedule f log f' ∧ f'.free = f.free ∧
      f'.calls[k]? = some ((c.beginUnit p).setUnit c.begun (.ended o)) := by
  have hlt := (List.getElem?_eq_some_iff.mp hp).1
  obtain ⟨log₁, f₁, hbegin, hfree₁, hk₁⟩ := Schedule.of_begin hk hr hp hfree
  obtain ⟨log₂, hend⟩ := Schedule.of_end hpath hk₁ (List.getElem?_set_self hlt)
  refine ⟨_, _, hbegin.trans hend, ?_,
    List.getElem?_set_self (List.getElem?_eq_some_iff.mp hk₁).1⟩
  show f₁.free + 1 = f.free
  omega

/-- A call that has not returned or taken a result. -/
structure Call.Untaken (c : Call Body α) : Prop where
  result : c.result = none
  awaited : ∀ i, i < c.begun → i ∈ c.awaited

theorem Call.Untaken.beginUnit (h : c.Untaken) (p : Program (Site Body) α) :
    (c.beginUnit p).Untaken where
  result := h.result
  awaited i hi := by
    rcases Nat.lt_succ_iff_lt_or_eq.mp hi with hi | rfl
    · exact List.mem_append_left _ (h.awaited i hi)
    · exact List.mem_append_right _ (List.mem_singleton_self _)

/-- So many units of a call begin and come to their outcomes, one after the other. -/
theorem Schedule.exists_passed {c : Call Body α} {f : Floor Body α} (outcome : Nat → Outcome α)
    (n : Nat) (hk : f.calls[k]? = some c) (hc : c.Untaken) (hfree : 1 ≤ f.free)
    (hnext : ∀ i, c.begun ≤ i → i < c.begun + n → ∃ p es, c.units[i]? = some (.queued p) ∧
      p.Path es (.ofOutcome (outcome i))) :
    ∃ log f' c', Schedule f log f' ∧ f'.free = f.free ∧ f'.calls[k]? = some c' ∧ c'.Untaken ∧
      c'.begun = c.begun + n ∧ ∀ i, c'.units[i]? =
        if c.begun ≤ i ∧ i < c.begun + n then some (.ended (outcome i)) else c.units[i]? := by
  induction n generalizing c f with
  | zero => exact ⟨[], f, c, .refl f, rfl, hk, hc, rfl, fun i => (if_neg (by omega)).symm⟩
  | succ n ih =>
    obtain ⟨p, es, hp, hpath⟩ := hnext c.begun (Nat.le_refl _) (by omega)
    have hlt := (List.getElem?_eq_some_iff.mp hp).1
    obtain ⟨log₁, f₁, hsched₁, hfree₁, hk₁⟩ := Schedule.of_pass hk hc.result hp hfree hpath
    generalize hc₁ : (c.beginUnit p).setUnit c.begun (.ended (outcome c.begun)) = c₁ at hk₁
    -- the first of them has passed, and no other has moved
    have hunits (i : Nat) : c₁.units[i]? =
        if i = c.begun then some (.ended (outcome i)) else c.units[i]? := by
      by_cases hi : i = c.begun
      · rw [if_pos hi, hi, ← hc₁]
        exact Call.getElem?_setUnit (by rwa [Call.beginUnit, List.length_set]) _
      · rw [if_neg hi, ← hc₁, Call.getElem?_setUnit_ne (Ne.symm hi)]
        exact List.getElem?_set_ne (Ne.symm hi)
    have huntaken : c₁.Untaken := by
      rw [← hc₁]
      exact ⟨hc.result, (hc.beginUnit p).awaited⟩
    have hbegun₁ : c₁.begun = c.begun + 1 := by
      rw [← hc₁]
      rfl
    obtain ⟨log₂, f₂, c₂, hsched₂, hfree₂, hk₂, hc₂, hbegun₂, hrest⟩ := ih hk₁ huntaken
      (by omega) fun i hle hi => by
        obtain ⟨q, fs, hq, hqpath⟩ := hnext i (by omega) (by omega)
        refine ⟨q, fs, ?_, hqpath⟩
        rw [hunits, if_neg (by omega), hq]
    refine ⟨_, f₂, c₂, hsched₁.trans hsched₂, by omega, hk₂, hc₂, by omega, fun i => ?_⟩
    rw [hrest, hunits, hbegun₁]
    by_cases hi : i = c.begun
    · rw [if_pos hi, if_neg (by omega), if_pos (by omega)]
    · have hiff : c.begun + 1 ≤ i ∧ i < c.begun + 1 + n ↔
          c.begun ≤ i ∧ i < c.begun + (n + 1) := by omega
      rw [if_neg hi]
      simp only [hiff]

theorem Call.untaken_start (units : List (Program (Site Body) α)) : (start units).Untaken where
  result := rfl
  awaited i hi := absurd hi (Nat.not_lt_zero i)

/-- Every unit has begun, that one is at work, and the others have come to their outcomes. -/
structure Call.AllBut (units : List (Program (Site Body) α)) (outcome : Nat → Outcome α) (j : Nat)
    (c : Call Body α) : Prop where
  untaken : c.Untaken
  begun : c.begun = units.length
  working : ∃ p, c.units[j]? = some (.working p)
  ended : ∀ i, i < units.length → i ≠ j → c.units[i]? = some (.ended (outcome i))

section

variable {outcome : Nat → Outcome α} (hk : f.calls[k]? = some (.start units))
  (houtcome : ∀ j, j < units.length → ∃ p es, (Call.start units).units[j]? = some (.queued p) ∧
    p.Path es (.ofOutcome (outcome j)))

include hk houtcome

/-- Every unit but the last one comes to its outcome before that begins. -/
theorem Schedule.exists_allButLast (hfree : 1 ≤ f.free) (hone : 1 ≤ units.length) :
    ∃ log f' c, Schedule f log f' ∧ f'.calls[k]? = some c ∧
      c.AllBut units outcome (units.length - 1) := by
  obtain ⟨log₁, f₁, c, hsched₁, hfree₁, hk₁, hc, hbegun, hunits⟩ :=
    Schedule.exists_passed outcome (units.length - 1) hk (Call.untaken_start units) hfree
      fun j _ (hj : j < 0 + (units.length - 1)) => houtcome j (by omega)
  replace hbegun : c.begun = units.length - 1 := hbegun.trans (Nat.zero_add _)
  replace hunits : ∀ j, c.units[j]? = if 0 ≤ j ∧ j < 0 + (units.length - 1) then
    some (.ended (outcome j)) else (Call.start units).units[j]? := hunits
  obtain ⟨p, -, hp, -⟩ := houtcome c.begun (by omega)
  have hqueued : c.units[c.begun]? = some (.queued p) := by
    rw [hunits, if_neg (by omega), hp]
  obtain ⟨log₂, f₂, hsched₂, -, hk₂⟩ := Schedule.of_begin hk₁ hc.result hqueued (by omega)
  refine ⟨_, f₂, _, hsched₁.trans hsched₂, hk₂, hc.beginUnit p, ?_, ⟨p, ?_⟩, fun i hi hne => ?_⟩
  · show c.begun + 1 = units.length
    omega
  · rw [← hbegun]
    exact List.getElem?_set_self (List.getElem?_eq_some_iff.mp hqueued).1
  · rw [Call.beginUnit, List.getElem?_set_ne (by omega), hunits, if_pos (by omega)]

/-- Every unit but the first one comes to its outcome while that is at work. -/
theorem Schedule.exists_allButFirst (hfree : 2 ≤ f.free) (hone : 1 ≤ units.length) :
    ∃ log f' c, Schedule f log f' ∧ f'.calls[k]? = some c ∧ c.AllBut units outcome 0 := by
  obtain ⟨p, -, hp, -⟩ := houtcome 0 hone
  obtain ⟨log₁, f₁, hsched₁, hfree₁, hk₁⟩ := Schedule.of_begin hk rfl hp (by omega)
  have hothers (j : Nat) (hj : 1 ≤ j) :
      ((Call.start units).beginUnit p).units[j]? = (Call.start units).units[j]? :=
    List.getElem?_set_ne (Nat.ne_of_lt hj)
  obtain ⟨log₂, f₂, c, hsched₂, -, hk₂, hc, hbegun, hunits⟩ :=
    Schedule.exists_passed outcome (units.length - 1) hk₁
      ((Call.untaken_start units).beginUnit p) (by omega)
      fun j (hle : 0 + 1 ≤ j) (hj : j < 0 + 1 + (units.length - 1)) => by
        rw [hothers j (by omega)]
        exact houtcome j (by omega)
  replace hbegun : c.begun = 0 + 1 + (units.length - 1) := hbegun
  replace hunits : ∀ j, c.units[j]? = if 0 + 1 ≤ j ∧ j < 0 + 1 + (units.length - 1) then
    some (.ended (outcome j)) else ((Call.start units).beginUnit p).units[j]? := hunits
  refine ⟨_, f₂, c, hsched₁.trans hsched₂, hk₂, hc, by omega, ⟨p, ?_⟩, fun i hi hne => ?_⟩
  · rw [hunits, if_neg (by omega)]
    exact List.getElem?_set_self (List.getElem?_eq_some_iff.mp hp).1
  · rw [hunits, if_pos (by omega)]

end

/-- A call that comes upon a lost unit returns, and another one that is at work is cancelled. -/
theorem Schedule.exists_cancelled {i j : Nat} {o : Overflow} {p : Program (Site Body) α}
    (hk : f.calls[k]? = some c) (hc : c.Untaken) (hbegun : c.begun = c.units.length)
    (hi : c.units[i]? = some (.ended (.error (.overflow o))))
    (hj : c.units[j]? = some (.working p)) :
    ∃ log f' c', Schedule f log f' ∧ f'.calls[k]? = some c' ∧ .cancelled ∈ c'.units := by
  have hklt := (List.getElem?_eq_some_iff.mp hk).1
  have hilt := (List.getElem?_eq_some_iff.mp hi).1
  have hjlt := (List.getElem?_eq_some_iff.mp hj).1
  have hne : j ≠ i := by
    rintro rfl
    exact nomatch hj.symm.trans hi
  have hlost := Call.Step.lost hc.result hbegun (hc.awaited i (hbegun ▸ hilt)) hi
  have hawaited : j ∈ c.awaited.erase i :=
    (List.mem_erase_of_ne hne).mpr (hc.awaited j (hbegun ▸ hjlt))
  have hcancel := Call.Step.cancelled
    (c := { c with awaited := c.awaited.erase i, result := some (.error lostWorker) })
    (Option.some_ne_none _) hawaited hj
  refine ⟨_, _, _, .step (.act hk hlost (Nat.zero_le _)) <|
    .step (.act (List.getElem?_set_self hklt) hcancel (Nat.zero_le _)) (.refl _),
    List.getElem?_set_self (by rwa [List.length_set]), ?_⟩
  exact List.mem_of_getElem? (Call.getElem?_setUnit hjlt _)

/-- Outcomes to which the units of a call can come, one of which is to be lost. -/
theorem exists_outcomes {i : Nat} {p : Program (Site Body) α} {es : List (Event (Site Body))}
    {o : Overflow} (hp : units[i]? = some p) (hpath : p.Path es (.stop (.overflow o))) :
    ∃ outcome : Nat → Outcome α, outcome i = .error (.overflow o) ∧
      ∀ j, j < units.length → ∃ p es, (Call.start units).units[j]? = some (.queued p) ∧
        p.Path es (.ofOutcome (outcome j)) := by
  have hunit (j : Nat) : ∃ o' : Outcome α, (j = i → o' = .error (.overflow o)) ∧
      (j < units.length → ∃ p es, units[j]? = some p ∧ p.Path es (.ofOutcome o')) := by
    by_cases hij : j = i
    · subst hij
      exact ⟨_, fun _ => rfl, fun _ => ⟨p, es, hp, hpath⟩⟩
    · by_cases hj : j < units.length
      · exact ⟨(units[j].run Site.failing ()).1, fun heq => absurd heq hij, fun _ =>
          ⟨units[j], _, List.getElem?_eq_getElem hj, path_trace Site.failing units[j] ()⟩⟩
      · exact ⟨.error (.overflow o), fun _ => rfl, fun hlt => absurd hlt hj⟩
  choose outcome hlost hend using hunit
  refine ⟨outcome, hlost i rfl, fun j hj => ?_⟩
  obtain ⟨p, es, hp, hpath⟩ := hend j hj
  refine ⟨p, es, ?_, hpath⟩
  rw [Call.start, List.getElem?_map, hp]
  rfl

/-- Where a unit may be lost while another is at work, that one may be cancelled. -/
theorem MayGiveUp.exists_schedule (h : MayGiveUp wanted units) (hk : calls[k]? = some units) :
    ∃ log f c, Schedule (.start wanted calls) log f ∧ f.calls[k]? = some c ∧
      .cancelled ∈ c.units := by
  obtain ⟨i, p, hp, hlost, hcase⟩ := h
  obtain ⟨es, o, hpath⟩ : ∃ es o, p.Path es (.stop (.overflow o)) := by
    by_contra hnone
    exact hlost fun es o hpath => hnone ⟨es, o, hpath⟩
  obtain ⟨outcome, hi, houtcome⟩ := exists_outcomes hp hpath
  have hilt := (List.getElem?_eq_some_iff.mp hp).1
  have hstart : (Floor.start wanted calls).calls[k]? = some (.start units) := by
    rw [Floor.start, List.getElem?_map, hk]
    rfl
  have hone : 1 ≤ workersFor wanted := Nat.le_max_right _ _
  obtain ⟨log, f, c, j, hsched, hc, hall, hij⟩ : ∃ log f c j, Schedule (.start wanted calls) log f ∧
      f.calls[k]? = some c ∧ c.AllBut units outcome j ∧ i ≠ j := by
    rcases hcase with hlast | ⟨hfirst, htwo⟩
    · obtain ⟨log, f, c, hsched, hc, hall⟩ :=
        Schedule.exists_allButLast hstart houtcome hone (by omega)
      exact ⟨log, f, c, _, hsched, hc, hall, by omega⟩
    · obtain ⟨log, f, c, hsched, hc, hall⟩ :=
        Schedule.exists_allButFirst hstart houtcome htwo (by omega)
      exact ⟨log, f, c, _, hsched, hc, hall, by omega⟩
  obtain ⟨c', hc', hrun⟩ := hsched.call_start hk
  obtain rfl := Option.some.inj (hc'.symm.trans hc)
  obtain ⟨q, hq⟩ := hall.working
  obtain ⟨log', f', c'', hend, hk', hcancelled⟩ := Schedule.exists_cancelled hc hall.untaken
    (hall.begun.trans hrun.length_start.symm) ((hall.ended i hilt hij).trans (by rw [hi])) hq
  exact ⟨_, f', c'', hsched.trans hend, hk', hcancelled⟩

/-! ## Calls that give up units -/

theorem Schedule.length_calls (h : Schedule f log f') : f'.calls.length = f.calls.length := by
  induction h with
  | refl => rfl
  | step hstep _ ih =>
    rw [ih]
    cases hstep with
    | act => exact List.length_set

/-- What a call has returned last, it has returned. -/
theorem Call.Run.result_eq {before : List (Act Body α)} {r : Except Error (List α)}
    (h : (Call.start units).Run (before ++ [.returns r]) c) : c.result = some r := by
  have hresult : c.result.toList = before.filterMap Act.returned? ++ [r] := by
    rw [h.result, List.filterMap_append]
    rfl
  have hlast := congrArg List.getLast? hresult
  rw [List.getLast?_concat] at hlast
  cases hr : c.result with
  | none => rw [hr] at hlast; exact nomatch hlast
  | some r' => rw [hr] at hlast; exact hlast

theorem callLog_append (k : Nat) (log log' : List (Nat × Act Body α)) :
    callLog k (log ++ log') = callLog k log ++ callLog k log' := List.filterMap_append

end

/-- Units are cancelled exactly where one may be lost while another is at work. A call that has
    returned has driven all of its units to their ends, or else reports the loss of one; and so does
    a call with its units taking turns that gives some up. -/
theorem cancelled_iff (wanted : Nat) (before after : List (List (Program (Site Body) α)))
    (units : List (Program (Site Body) α)) :
    ((∃ log f c, Schedule (.start wanted (before ++ units :: after)) log f ∧
        f.calls[before.length]? = some c ∧ .cancelled ∈ c.units) ↔ MayGiveUp wanted units) ∧
    (∀ log f c r, Schedule (.start wanted (before ++ units :: after)) log f →
      f.calls[before.length]? = some c → c.result = some r →
      (∀ s ∈ c.units, ∃ o, s = .ended o) ∨ r = .error lostWorker ∧ MayGiveUp wanted units) ∧
    ∀ (h : Handler (Site Body) σ) (x : σ), (run (workersFor wanted) 0 h units x).1.givenUp = 0 ∨
      (run (workersFor wanted) 0 h units x).1.result = .error lostWorker ∧
        MayGiveUp wanted units := by
  have hk : (before ++ units :: after)[before.length]? = some units := by simp
  refine ⟨⟨fun h => ?_, fun h => h.exists_schedule hk⟩, fun log f c r hsched hc hr => ?_,
    fun h x => ?_⟩
  · obtain ⟨log, f, c, hsched, hc, hcancelled⟩ := h
    have horderly := hsched.orderly c (List.mem_of_getElem? hc)
    obtain ⟨r, hr⟩ := Option.ne_none_iff_exists'.mp fun hnone =>
      horderly.cancelled hnone hcancelled
    exact (hsched.mayGiveUp hk hc hr hcancelled fun o ho => by cases ho).2
  · by_cases hended : ∀ s ∈ c.units, ∃ o, s = .ended o
    · exact .inl hended
    · push Not at hended
      obtain ⟨s, hs, hleft⟩ := hended
      exact .inr (hsched.mayGiveUp hk hc hr hs hleft)
  -- the turns of a run are a schedule, at whose end the units given up are still at work
  · obtain ⟨log, f, hsched, hrunning⟩ := exists_schedule_run wanted h units x
    obtain ⟨c, hc, hrun⟩ := hsched.call_start (k := 0) rfl
    rw [callLog_append] at hrun
    have hr := Call.Run.result_eq hrun
    have hcalls : f.calls = [c] := by
      obtain ⟨c', hc'⟩ := List.length_eq_one_iff.mp hsched.length_calls
      rw [hc'] at hc ⊢
      rw [Option.some.inj hc]
    by_cases hnone : f.running = 0
    · exact .inl (hrunning.symm.trans hnone)
    · obtain ⟨s, hs, hworking⟩ : ∃ s ∈ c.units, s.isWorking = true := by
        rw [Floor.running, hcalls] at hnone
        by_contra hidle
        push Not at hidle
        exact hnone (by simpa using hidle)
      refine .inr (hsched.mayGiveUp rfl hc hr hs fun o ho => ?_)
      rw [ho] at hworking
      cases hworking

/-- A lost unit and one behind it on a single worker: the second one may be cancelled. -/
theorem cancelled_iff_lostFirst :
    @MayGiveUp String Nat 1 [.stop (.overflow .subtract), .done 2] ∧
      ∃ log f c, @Schedule String Nat
        (.start 1 [[.stop (.overflow .subtract), .done 2]]) log f ∧ f.calls[0]? = some c ∧
        .cancelled ∈ c.units := by
  have hlost : @MayGiveUp String Nat 1 [.stop (.overflow .subtract), .done 2] :=
    ⟨0, _, rfl, fun hreturns => hreturns [] .subtract (.here _), .inl (by decide)⟩
  exact ⟨hlost, (cancelled_iff (σ := Unit) 1 [] [] _).1.mpr hlost⟩

end Pool

end LedgerSearch
