import Mathlib
import LedgerSearch.Proofs.Pool.Schedule
import LedgerSearch.Proofs.Program.TraceRun

/-
  Units that take turns follow a schedule: what a call of the pool comes to with its units taking
  turns, it comes to by a schedule of the pool (`exists_schedule_run`).
-/

namespace LedgerSearch

open Program

namespace Pool

variable {Body α σ : Type}

/-! ## One unit, and one call -/

/-- The requests of one unit. -/
def asks (i : Nat) (es : List (Event (Site Body))) : List (Act Body α) :=
  es.map fun ev => .unit i (.asks ev)

theorem takes_asks {i : Nat} {es : List (Event (Site Body))} {a : Act Body α}
    (ha : a ∈ asks i es) : a.takes = 0 := by
  obtain ⟨ev, -, rfl⟩ := List.mem_map.mp ha
  rfl

theorem frees_asks (i : Nat) (es : List (Event (Site Body))) :
    ((asks i es : List (Act Body α)).map Act.frees).sum = 0 := by
  rw [asks, List.map_map]
  refine List.sum_eq_zero fun n hn => ?_
  obtain ⟨ev, -, rfl⟩ := List.mem_map.mp hn
  rfl

/-- A unit at work goes on along a path of its program. -/
theorem Call.run_of_path {p q : Program (Site Body) α} {es : List (Event (Site Body))}
    (h : p.Path es q) {c : Call Body α} {i : Nat} (hi : c.units[i]? = some (.working p)) :
    c.Run (asks i es) (c.setUnit i (.working q)) := by
  induction h generalizing c with
  | here p =>
    rw [setUnit_self hi]
    exact .refl c
  | @ask r next reply es q _ ih =>
    have hlt := (List.getElem?_eq_some_iff.mp hi).1
    have hrest := ih (getElem?_setUnit hlt (.working (next reply)))
    rw [setUnit_setUnit] at hrest
    exact .step (.works hi trivial (.asks reply)) hrest

/-- A unit at work goes on along a path to its outcome and leaves its worker. -/
theorem Call.run_of_end {p : Program (Site Body) α} {es : List (Event (Site Body))} {o : Outcome α}
    (h : p.Path es (.ofOutcome o)) {c : Call Body α} {i : Nat}
    (hi : c.units[i]? = some (.working p)) :
    c.Run (asks i es ++ [.unit i (.ends o), .unit i .leaves])
      (c.setUnit i (.ended o)) := by
  have hlt := (List.getElem?_eq_some_iff.mp hi).1
  refine run_append.mpr ⟨_, run_of_path h hi, ?_⟩
  refine .step (.works (getElem?_setUnit hlt _) trivial (.ends rfl)) ?_
  rw [setUnit_setUnit]
  refine .step (.works (getElem?_setUnit hlt _) trivial (.leaves o)) ?_
  rw [setUnit_setUnit]
  exact .refl _

/-- A run of one call that takes no worker is a schedule. -/
theorem Schedule.of_run {f : Floor Body α} {k : Nat} {c c' : Call Body α}
    {log : List (Act Body α)} (h : c.Run log c') (hk : f.calls[k]? = some c)
    (htakes : ∀ a ∈ log, a.takes = 0) :
    Schedule f (log.map (k, ·)) ⟨f.free + (log.map Act.frees).sum, f.calls.set k c'⟩ := by
  induction h generalizing f with
  | refl c =>
    have hset : f.calls.set k c = f.calls := by
      obtain ⟨hlt, rfl⟩ := List.getElem?_eq_some_iff.mp hk
      exact List.set_getElem_self hlt
    rw [hset]
    exact .refl f
  | @step c c₁ c₂ a log hstep _ ih =>
    obtain ⟨ha, hlog⟩ := List.forall_mem_cons.mp htakes
    have hlt := (List.getElem?_eq_some_iff.mp hk).1
    have hfirst : f.Step (k, a) ⟨f.free + a.frees, f.calls.set k c₁⟩ := by
      have hact := Floor.Step.act hk hstep (by rw [ha]; exact Nat.zero_le _)
      rwa [ha] at hact
    have hrest := ih (f := ⟨f.free + a.frees, f.calls.set k c₁⟩) (List.getElem?_set_self hlt) hlog
    rw [List.set_set, Nat.add_assoc] at hrest
    exact .step hfirst hrest

/-- A unit at work goes on along a path: no worker is taken or freed. -/
theorem Schedule.of_path {f : Floor Body α} {k : Nat} {c : Call Body α} {i : Nat}
    {p q : Program (Site Body) α} {es : List (Event (Site Body))} (h : p.Path es q)
    (hk : f.calls[k]? = some c) (hi : c.units[i]? = some (.working p)) :
    ∃ log, Schedule f log ⟨f.free, f.calls.set k (c.setUnit i (.working q))⟩ := by
  have hsched := of_run (Call.run_of_path h hi) hk fun a => takes_asks
  rw [frees_asks] at hsched
  exact ⟨_, hsched⟩

/-- A unit at work goes on to its outcome and frees its worker. -/
theorem Schedule.of_end {f : Floor Body α} {k : Nat} {c : Call Body α} {i : Nat}
    {p : Program (Site Body) α} {es : List (Event (Site Body))} {o : Outcome α}
    (h : p.Path es (.ofOutcome o)) (hk : f.calls[k]? = some c)
    (hi : c.units[i]? = some (.working p)) :
    ∃ log, Schedule f log ⟨f.free + 1, f.calls.set k (c.setUnit i (.ended o))⟩ := by
  have htakes : ∀ a ∈ asks i es ++ [.unit i (.ends o), .unit i .leaves], a.takes = 0 := by
    intro a ha
    rcases List.mem_append.mp ha with ha | ha
    · exact takes_asks ha
    · rcases List.mem_pair.mp ha with rfl | rfl <;> rfl
  have hsched := of_run (Call.run_of_end h hi) hk htakes
  rw [List.map_append (f := Act.frees), List.sum_append, frees_asks] at hsched
  exact ⟨_, hsched⟩

/-- A call whose units are over takes their results, the first one first, and returns. -/
theorem Call.Orderly.exists_returns {c : Call Body α} (h : c.Orderly) (hr : c.result = none)
    (hbegun : c.begun = c.units.length) {rs : List (Except Error α)}
    (hrs : c.units = rs.map fun r => .ended (r.mapError .error)) :
    ∃ log c', c.Run (log ++ [.returns (collect rs)]) c' ∧ c'.units = c.units ∧
      ∀ a ∈ log ++ [.returns (collect rs)], a.takes = 0 := by
  generalize hn : c.awaited = awaited
  induction awaited generalizing c with
  | nil =>
    have hgathered := h.gathered_eq hr hbegun hn hrs
    refine ⟨[], { c with result := some (collect rs) }, ?_, rfl, fun a ha => ?_⟩
    · rw [← hgathered]
      exact .step (.returns hr hbegun hn) (.refl _)
    · obtain rfl := List.mem_singleton.mp ha
      rfl
  | cons i rest ih =>
    have hi : i ∈ c.awaited := hn ▸ List.mem_cons_self
    have hlt : i < rs.length := by
      have hlt := h.awaited_lt i hi
      rwa [hbegun, hrs, List.length_map] at hlt
    have hended : c.units[i]? = some (.ended (rs[i].mapError .error)) := by
      rw [hrs, List.getElem?_map, List.getElem?_eq_getElem hlt]
      rfl
    obtain ⟨log, c', hrun, hunits, hquiet⟩ := ih (h.join hr hended) hr hbegun hrs
      (by rw [hn, List.erase_cons_head])
    refine ⟨.joined i :: log, c', .step (.joined hr hbegun hi hended) hrun, hunits, fun a ha => ?_⟩
    rcases List.mem_cons.mp ha with rfl | ha
    · rfl
    · exact hquiet a ha

/-! ## Turns as a schedule -/

namespace State

/-- How far a unit is, of which the first `begun` have begun. -/
def stage (begun i : Nat) : Job Body α → Stage Body α
  | .left p => if i < begun then .working p else .queued p
  | .ended o => .ended o

/-- The call while its units take turns. -/
def call (s : State Body α) : Call Body α where
  units := s.jobs.mapIdx (stage s.begun)
  begun := s.begun
  awaited := List.range s.begun
  slots := s.jobs.map fun _ => none
  result := none

/-- The floor that a state of the dispatcher stands for: its one call and the workers left. -/
def floor (workers : Nat) (s : State Body α) : Floor Body α := ⟨workers - s.running, [s.call]⟩

/-- The units that will have a turn. -/
def turns (s : State Body α) : List Nat := s.ready ++ s.asleep.map (·.2)

/-- Those units will have a turn that have begun and are not over, and they are no more than the
    workers. -/
structure Tidy (workers : Nat) (s : State Body α) : Prop where
  begun_le : s.begun ≤ s.jobs.length
  running_le : s.running ≤ workers
  nodup : s.turns.Nodup
  mem_turns : ∀ i, i ∈ s.turns ↔ i < s.begun ∧ ∃ p, s.jobs[i]? = some (.left p)
  queued : ∀ i, s.begun ≤ i → i < s.jobs.length → ∃ p, s.jobs[i]? = some (.left p)

variable {s : State Body α} {workers : Nat}

theorem length_turns (s : State Body α) : s.turns.length = s.running := by
  rw [turns, List.length_append, List.length_map, running]

theorem getElem?_units_call (s : State Body α) (i : Nat) :
    s.call.units[i]? = s.jobs[i]?.map (stage s.begun i) := List.getElem?_mapIdx

/-- The first unit that waits has begun. -/
def beginOne (s : State Body α) : State Body α :=
  { s with begun := s.begun + 1, ready := s.ready ++ [s.begun] }

theorem turns_beginOne_perm (s : State Body α) : s.beginOne.turns.Perm (s.begun :: s.turns) := by
  rw [turns, turns, beginOne, List.append_assoc]
  exact List.perm_middle

theorem running_beginOne (s : State Body α) : s.beginOne.running = s.running + 1 := by
  rw [← length_turns, s.turns_beginOne_perm.length_eq, List.length_cons, length_turns]

theorem Tidy.beginOne (h : Tidy workers s) (hlt : s.begun < s.jobs.length)
    (hfree : s.running < workers) : Tidy workers s.beginOne where
  begun_le := hlt
  running_le := by
    rw [running_beginOne]
    exact hfree
  nodup := by
    refine s.turns_beginOne_perm.nodup_iff.mpr (List.nodup_cons.mpr ⟨fun hmem => ?_, h.nodup⟩)
    exact Nat.lt_irrefl _ ((h.mem_turns _).mp hmem).1
  mem_turns i := by
    show i ∈ s.beginOne.turns ↔ i < s.begun + 1 ∧ ∃ p, s.jobs[i]? = some (.left p)
    rw [s.turns_beginOne_perm.mem_iff, List.mem_cons, h.mem_turns, Nat.lt_succ_iff_lt_or_eq]
    constructor
    · rintro (rfl | ⟨hi, hp⟩)
      · exact ⟨.inr rfl, h.queued _ (Nat.le_refl _) hlt⟩
      · exact ⟨.inl hi, hp⟩
    · rintro ⟨hi | rfl, hp⟩
      · exact .inr ⟨hi, hp⟩
      · exact .inl rfl
  queued i hi := h.queued i (Nat.le_of_succ_le hi)

theorem call_beginOne {p : Program (Site Body) α} (hp : s.jobs[s.begun]? = some (.left p)) :
    s.beginOne.call = s.call.beginUnit p := by
  have hunits : s.jobs.mapIdx (stage (s.begun + 1)) =
      (s.jobs.mapIdx (stage s.begun)).set s.begun (.working p) := by
    refine List.ext_getElem? fun i => ?_
    rw [List.getElem?_mapIdx, List.getElem?_set, List.getElem?_mapIdx, List.length_mapIdx]
    by_cases hi : s.begun = i
    · subst hi
      have hlt := (List.getElem?_eq_some_iff.mp hp).1
      rw [if_pos rfl, if_pos hlt, hp, Option.map_some, stage, if_pos (Nat.lt_succ_self _)]
    · rw [if_neg hi]
      cases s.jobs[i]? with
      | none => rfl
      | some j =>
        cases j with
        | ended o => rfl
        | left q =>
          have hiff : i < s.begun + 1 ↔ i < s.begun := by omega
          simp only [Option.map_some, stage, hiff]
  show Call.mk _ (s.begun + 1) (List.range (s.begun + 1)) _ none = _
  rw [List.range_succ]
  exact congrArg (Call.mk · _ _ _ _) hunits

/-- The dispatcher begins one unit. -/
theorem Tidy.step_beginOne (h : Tidy workers s) (hlt : s.begun < s.jobs.length)
    (hfree : s.running < workers) :
    (s.floor workers).Step (0, .unit s.begun .begins) (s.beginOne.floor workers) := by
  obtain ⟨p, hp⟩ := h.queued s.begun (Nat.le_refl _) hlt
  have hqueued : s.call.units[s.call.begun]? = some (.queued p) := by
    show s.call.units[s.begun]? = _
    rw [getElem?_units_call, hp, Option.map_some, stage, if_neg (Nat.lt_irrefl _)]
  have hstep := Floor.Step.act (f := s.floor workers) (k := 0) rfl (.begins rfl hqueued)
    (Nat.sub_pos_of_lt hfree)
  have hfloor : s.beginOne.floor workers =
      ⟨(s.floor workers).free - 1 + 0, (s.floor workers).calls.set 0 (s.call.beginUnit p)⟩ := by
    rw [floor, call_beginOne hp, running_beginOne]
    show Floor.mk _ _ = Floor.mk (workers - s.running - 1 + 0) _
    rw [Nat.sub_sub]
    rfl
  rw [hfloor]
  exact hstep

/-- So many of the units that wait have begun. -/
def beginMany (n : Nat) (s : State Body α) : State Body α :=
  { s with begun := s.begun + n, ready := s.ready ++ List.range' s.begun n }

theorem beginMany_succ (n : Nat) (s : State Body α) :
    s.beginMany (n + 1) = s.beginOne.beginMany n := by
  rw [beginMany, beginMany, beginOne, List.range'_succ, List.append_assoc, Nat.add_right_comm]
  rfl

theorem Tidy.exists_beginMany {n : Nat} (h : Tidy workers s) (hfree : s.running + n ≤ workers)
    (hlen : s.begun + n ≤ s.jobs.length) :
    Tidy workers (s.beginMany n) ∧
      ∃ log, Schedule (s.floor workers) log ((s.beginMany n).floor workers) := by
  induction n generalizing s with
  | zero =>
    have hnone : s.beginMany 0 = s := by
      rw [beginMany, List.range'_zero, List.append_nil]
      rfl
    rw [hnone]
    exact ⟨h, [], .refl _⟩
  | succ n ih =>
    have hlt : s.begun < s.jobs.length := by omega
    have hfree' : s.running < workers := by omega
    have hbegun : s.begun + 1 + n ≤ s.jobs.length := by omega
    obtain ⟨ht, log, hsched⟩ := ih (h.beginOne hlt hfree') (by rw [running_beginOne]; omega) hbegun
    rw [beginMany_succ]
    exact ⟨ht, _, .step (h.step_beginOne hlt hfree') hsched⟩

/-- The dispatcher begins units as long as there are free workers. -/
theorem Tidy.exists_beginUnits (h : Tidy workers s) :
    Tidy workers (s.beginUnits workers) ∧
      ∃ log, Schedule (s.floor workers) log ((s.beginUnits workers).floor workers) := by
  have hrunning := h.running_le
  have hbegun := h.begun_le
  exact h.exists_beginMany (by omega) (by omega)

/-- Which units have a turn first is nothing to the workers. -/
theorem Tidy.of_turns {t : State Body α} (h : Tidy workers s) (hbegun : t.begun = s.begun)
    (hjobs : t.jobs = s.jobs) (hturns : t.turns = s.turns) :
    Tidy workers t ∧ t.floor workers = s.floor workers := by
  have hrunning : t.running = s.running := by rw [← length_turns, hturns, length_turns]
  constructor
  · exact ⟨by rw [hbegun, hjobs]; exact h.begun_le, by rw [hrunning]; exact h.running_le,
      by rw [hturns]; exact h.nodup, by rw [hturns, hbegun, hjobs]; exact h.mem_turns,
      by rw [hbegun, hjobs]; exact h.queued⟩
  · rw [floor, floor, call, call, hrunning, hbegun, hjobs]

theorem turns_wake (hready : s.ready = []) : s.wake.turns = s.turns := by
  unfold wake
  split
  · rfl
  · next t i rest hasleep =>
    rw [turns, turns, hready, hasleep]
    show i :: ((rest.takeWhile (·.1 = t)).map (·.2) ++ (rest.dropWhile (·.1 = t)).map (·.2)) =
      i :: rest.map (·.2)
    rw [← List.map_append, List.takeWhile_append_dropWhile]

theorem begun_wake (s : State Body α) : s.wake.begun = s.begun := by
  unfold wake; split <;> rfl

/-- The dispatcher begins what it can begin, and lets time pass where no unit has a turn. -/
theorem Tidy.exists_next (h : Tidy workers s) :
    Tidy workers (s.next workers) ∧
      ∃ log, Schedule (s.floor workers) log ((s.next workers).floor workers) := by
  rw [next, dispatch]
  by_cases hready : s.ready.isEmpty = true
  · rw [if_pos hready]
    obtain ⟨ht, log, hsched⟩ := h.exists_beginUnits
    by_cases hnone : (s.beginUnits workers).ready.isEmpty = true
    · rw [if_pos hnone]
      obtain ⟨hw, hfloor⟩ := ht.of_turns (begun_wake _) (jobs_wake _)
        (turns_wake (List.isEmpty_iff.mp hnone))
      exact ⟨hw, log, by rw [hfloor]; exact hsched⟩
    · rw [if_neg hnone]
      exact ⟨ht, log, hsched⟩
  · rw [if_neg hready]
    exact ⟨h, [], .refl _⟩

theorem asleep_of_wake (hready : s.wake.ready = []) : s.asleep = [] := by
  unfold wake at hready
  split at hready
  · next hasleep => exact hasleep
  · exact nomatch hready

/-- Where the dispatcher finds no unit to have a turn, all have begun and none is left. -/
theorem Tidy.ended_of_next (h : Tidy workers s) (hone : 1 ≤ workers)
    (hready : (s.next workers).ready = []) :
    (s.next workers).begun = (s.next workers).jobs.length ∧ (s.next workers).running = 0 := by
  have hempty : s.ready.isEmpty = true := by
    by_contra hne
    rw [next, if_neg hne] at hready
    exact hne (List.isEmpty_iff.mpr hready)
  have hnone : (s.beginUnits workers).ready.isEmpty = true := by
    by_contra hne
    rw [next, if_pos hempty, dispatch, if_neg hne] at hready
    exact hne (List.isEmpty_iff.mpr hready)
  have hnext : s.next workers = (s.beginUnits workers).wake := by
    rw [next, if_pos hempty, dispatch]
    exact if_pos hnone
  rw [hnext] at hready ⊢
  have hasleep : (s.beginUnits workers).asleep = [] := asleep_of_wake hready
  replace hasleep : s.asleep = [] := hasleep
  have hrunning : s.running = 0 := by
    rw [running, List.isEmpty_iff.mp hempty, hasleep]
    rfl
  have hwake : (s.beginUnits workers).wake = s.beginUnits workers := by
    unfold wake
    rw [show (s.beginUnits workers).asleep = [] from hasleep]
  -- every worker is free, so it must be the units that have run out
  have hbegun : min (workers - s.running) (s.jobs.length - s.begun) = 0 := by
    have hrange := (List.append_eq_nil_iff.mp (List.isEmpty_iff.mp hnone)).2
    exact List.range'_eq_nil_iff.mp hrange
  have hle := h.begun_le
  rw [hwake]
  constructor
  · show s.begun + min (workers - s.running) (s.jobs.length - s.begun) = s.jobs.length
    omega
  · rw [running, List.isEmpty_iff.mp hnone]
    show 0 + s.asleep.length = 0
    rw [hasleep]
    rfl

theorem insertSleeper_perm (t i : Nat) (asleep : List (Nat × Nat)) :
    (insertSleeper t i asleep).Perm ((t, i) :: asleep) := by
  induction asleep with
  | nil => exact .refl _
  | cons u rest ih =>
    rw [insertSleeper]
    split
    · exact (ih.cons u).trans (.swap _ _ _)
    · exact .refl _

theorem call_set (t t' : State Body α) {i : Nat} {j : Job Body α}
    (hbegun : t'.begun = t.begun) (hjobs : t'.jobs = t.jobs.set i j) :
    t'.call = t.call.setUnit i (stage t.begun i j) := by
  rw [call, hbegun, hjobs, List.mapIdx_set, List.map_set]
  have hslots : (t.jobs.map fun _ => (none : Option (Except Error α))).set i none =
      t.jobs.map fun _ => none := by
    rw [← List.map_set (f := fun _ : Job Body α => (none : Option (Except Error α))) (a := j)]
    simp
  rw [hslots]
  rfl

/-- A unit that has a turn is not over. -/
theorem Tidy.exists_left {t : State Body α} {i : Nat} {ready : List Nat} (ht : Tidy workers t)
    (hready : t.ready = i :: ready) : i < t.begun ∧ ∃ p, t.jobs[i]? = some (.left p) := by
  refine (ht.mem_turns i).mp ?_
  rw [turns, hready]
  exact List.mem_cons_self

/-- A unit is over after its turn. -/
theorem Tidy.end_unit {t u : State Body α} {i : Nat} {ready : List Nat} {o : Outcome α}
    (ht : Tidy workers t) (hready : t.ready = i :: ready)
    (hu : u = { t with ready }.record i (.ended o)) :
    Tidy workers u ∧ u.running + 1 = t.running := by
  have hturns : t.turns = i :: u.turns := by
    rw [turns, hready, hu]
    rfl
  have hrunning : u.running + 1 = t.running := by
    rw [← length_turns t, hturns, List.length_cons, length_turns]
  have hnodup := ht.nodup
  rw [hturns] at hnodup
  obtain ⟨hi, hnodup⟩ := List.nodup_cons.mp hnodup
  have hjobs : u.jobs = t.jobs.set i (.ended o) := by rw [hu]; rfl
  have hbegun : u.begun = t.begun := by rw [hu]; rfl
  have hstarted := (ht.exists_left hready).1
  have hothers : ∀ j ≠ i, u.jobs[j]? = t.jobs[j]? := fun j hj => by
    rw [hjobs, List.getElem?_set_ne (Ne.symm hj)]
  refine ⟨⟨?_, by have := ht.running_le; omega, hnodup, fun j => ?_, fun j hj hlt => ?_⟩, hrunning⟩
  · rw [hbegun, hjobs, List.length_set]
    exact ht.begun_le
  · by_cases hj : j = i
    · subst hj
      refine iff_of_false hi fun h => ?_
      obtain ⟨-, p, hp⟩ := h
      rw [hjobs, List.getElem?_set] at hp
      split at hp
      · split at hp <;> exact nomatch hp
      · next hne => exact hne rfl
    · rw [hbegun, hothers j hj, ← ht.mem_turns, hturns, List.mem_cons, or_iff_right hj]
  · rw [hbegun] at hj
    rw [hothers j (by omega)]
    rw [hjobs, List.length_set] at hlt
    exact ht.queued j hj hlt

/-- A unit waits after its turn. -/
theorem Tidy.put_unit {t u : State Body α} {i : Nat} {ready : List Nat} {ms : Nat}
    {p rest : Program (Site Body) α} (ht : Tidy workers t) (hready : t.ready = i :: ready)
    (hp : t.jobs[i]? = some (.left p)) (hu : u = { t with ready }.record i (.waiting ms rest)) :
    Tidy workers u ∧ u.running = t.running := by
  have hperm : u.turns.Perm t.turns := by
    rw [turns, turns, hready, hu]
    refine (List.Perm.append_left ready ((insertSleeper_perm _ i t.asleep).map (·.2))).trans ?_
    exact List.perm_middle
  have hrunning : u.running = t.running := by rw [← length_turns, hperm.length_eq, length_turns]
  have hjobs : u.jobs = t.jobs.set i (.left rest) := by rw [hu]; rfl
  have hbegun : u.begun = t.begun := by rw [hu]; rfl
  have hlt := (List.getElem?_eq_some_iff.mp hp).1
  have hleft (j : Nat) :
      (∃ q, u.jobs[j]? = some (Job.left q)) ↔ ∃ q, t.jobs[j]? = some (Job.left q) := by
    by_cases hj : i = j
    · subst hj
      rw [hjobs, List.getElem?_set_self hlt]
      exact iff_of_true ⟨rest, rfl⟩ ⟨p, hp⟩
    · rw [hjobs, List.getElem?_set_ne hj]
  refine ⟨⟨?_, by rw [hrunning]; exact ht.running_le, hperm.nodup_iff.mpr ht.nodup, fun j => ?_,
    fun j hj hjl => ?_⟩, hrunning⟩
  · rw [hbegun, hjobs, List.length_set]
    exact ht.begun_le
  · rw [hperm.mem_iff, ht.mem_turns, hbegun, hleft]
  · rw [hbegun] at hj
    rw [hjobs, List.length_set] at hjl
    exact (hleft j).mpr (ht.queued j hj hjl)

/-- A unit has its turn. -/
theorem Tidy.exists_turn {t : State Body α} {i : Nat} {ready : List Nat}
    {p : Program (Site Body) α} (ht : Tidy workers t) (hready : t.ready = i :: ready)
    (hp : t.jobs[i]? = some (.left p)) (h : Handler (Site Body) σ) (x : σ) :
    Tidy workers ({ t with ready }.record i (p.turn h x).1) ∧
      ∃ log, Schedule (t.floor workers) log
        (({ t with ready }.record i (p.turn h x).1).floor workers) := by
  obtain ⟨es, hpath, -⟩ :=
    @path_turn Body α σ h (fun _ => True) (fun _ _ _ => trivial) p x trivial
  have hstarted := (ht.exists_left hready).1
  have hworking : t.call.units[i]? = some (.working p) := by
    rw [getElem?_units_call, hp, Option.map_some, stage, if_pos hstarted]
  have hle := ht.running_le
  cases hturn : (p.turn h x).1 with
  | ended o =>
    rw [hturn] at hpath
    obtain ⟨htidy, hrunning⟩ := ht.end_unit (o := o) hready rfl
    obtain ⟨log, hsched⟩ := Schedule.of_end (f := t.floor workers) (k := 0) hpath rfl hworking
    have hfloor : ({ t with ready }.record i (.ended o)).floor workers =
        ⟨workers - t.running + 1, [t.call.setUnit i (.ended o)]⟩ := by
      have hcall := call_set t ({ t with ready }.record i (.ended o)) rfl rfl
      rw [floor, hcall]
      congr 1
      omega
    rw [hfloor]
    exact ⟨htidy, _, hsched⟩
  | waiting ms rest =>
    rw [hturn] at hpath
    obtain ⟨htidy, hrunning⟩ := ht.put_unit hready hp
      (rfl : _ = State.record { t with ready } i (.waiting ms rest))
    obtain ⟨log, hsched⟩ := Schedule.of_path (f := t.floor workers) (k := 0) hpath rfl hworking
    have hfloor : ({ t with ready }.record i (.waiting ms rest)).floor workers =
        ⟨workers - t.running, [t.call.setUnit i (.working rest)]⟩ := by
      have hcall := call_set t ({ t with ready }.record i (.waiting ms rest)) rfl rfl
      rw [floor, hcall, hrunning, stage, if_pos hstarted]
    rw [hfloor]
    exact ⟨htidy, _, hsched⟩

/-- Units take turns until all of them have begun, and one is lost or none is left. -/
theorem Tidy.exists_settle (hs : Tidy workers s) (hone : 1 ≤ workers)
    (h : Handler (Site Body) σ) (x : σ) :
    Tidy workers (s.settle workers h x).1 ∧
      (∃ log, Schedule (s.floor workers) log ((s.settle workers h x).1.floor workers)) ∧
      (s.settle workers h x).1.begun = (s.settle workers h x).1.jobs.length ∧
      ((∃ j ∈ (s.settle workers h x).1.jobs, j.isLost = true) ∨
        (s.settle workers h x).1.running = 0) := by
  fun_induction settle workers h s x with
  | case1 s x hlost =>
    rw [isLost, Bool.and_eq_true, Bool.and_eq_true, decide_eq_true_iff, List.any_eq_true] at hlost
    obtain ⟨⟨-, hbegun⟩, hlost⟩ := hlost
    obtain ⟨ht, hsched⟩ := hs.exists_beginUnits
    exact ⟨ht, hsched, hbegun, .inl hlost⟩
  | case2 s x hlost t hready =>
    obtain ⟨ht, hsched⟩ := hs.exists_next
    obtain ⟨hbegun, hrunning⟩ := hs.ended_of_next hone hready
    exact ⟨ht, hsched, hbegun, .inr hrunning⟩
  | case3 s x hlost t i ready hready p hj turn ih =>
    obtain ⟨ht, log₁, hsched₁⟩ := hs.exists_next
    obtain ⟨hu, log₂, hsched₂⟩ := ht.exists_turn hready hj h (pass h (t.now - s.now) x)
    obtain ⟨hs', ⟨log₃, hsched₃⟩, hrest⟩ := ih hu
    exact ⟨hs', ⟨_, hsched₁.trans (hsched₂.trans hsched₃)⟩, hrest⟩
  | case4 s x hlost t i ready hready o hj =>
    obtain ⟨-, p, hp⟩ := hs.exists_next.1.exists_left hready
    cases hj.symm.trans hp
  | case5 s x hlost t i ready hready hj =>
    obtain ⟨-, p, hp⟩ := hs.exists_next.1.exists_left hready
    cases hj.symm.trans hp

/-! ## A call of the pool -/

/-- Units that wait for workers. -/
def start (units : List (Program (Site Body) α)) : State Body α := { jobs := units.map .left }

theorem tidy_start (workers : Nat) (units : List (Program (Site Body) α)) :
    Tidy workers (start units) where
  begun_le := Nat.zero_le _
  running_le := Nat.zero_le _
  nodup := List.nodup_nil
  mem_turns i := iff_of_false List.not_mem_nil fun h => absurd h.1 (Nat.not_lt_zero i)
  queued i _ hlt := by
    have hi : i < units.length := by simpa [start] using hlt
    exact ⟨units[i], by simp [start, hi]⟩

theorem floor_start (wanted : Nat) (units : List (Program (Site Body) α)) :
    (start units).floor (workersFor wanted) = .start wanted [units] := by
  have hunits : (units.map Job.left).mapIdx (stage 0) = units.map Stage.queued := by
    refine List.ext_getElem? fun i => ?_
    rw [List.getElem?_mapIdx, List.getElem?_map, List.getElem?_map]
    cases units[i]? <;> rfl
  rw [floor, call, start]
  dsimp only
  rw [hunits, List.map_map]
  rfl

/-- The jobs of units that all have results. -/
theorem jobs_of_verdict {rs : List (Except Error α)} (h : s.verdict = some rs) :
    s.jobs = rs.map fun r => .ended (r.mapError .error) := by
  rw [verdict] at h
  generalize s.jobs = jobs at h
  induction jobs generalizing rs with
  | nil =>
    obtain rfl := Option.some.inj h
    rfl
  | cons j js ih =>
    rw [List.mapM_cons] at h
    obtain ⟨r, hr, h⟩ := Option.bind_eq_some_iff.mp h
    obtain ⟨rs', hrs, h⟩ := Option.bind_eq_some_iff.mp h
    obtain rfl := Option.some.inj h
    rw [ih hrs, List.map_cons]
    match j, hr with
    | .ended (.ok a), hr =>
      obtain rfl := Option.some.inj hr
      rfl
    | .ended (.error (.error e)), hr =>
      obtain rfl := Option.some.inj hr
      rfl

theorem isLost_or_result {j : Job Body α} {o : Outcome α} (hj : j = .ended o) :
    j.isLost = true ∨ ∃ r, j.result? = some r := by
  subst hj
  match o with
  | .ok a => exact .inr ⟨.ok a, rfl⟩
  | .error (.error e) => exact .inr ⟨.error e, rfl⟩
  | .error (.overflow o) => exact .inl rfl

/-- Where a result is missing and no unit is left, one is lost. -/
theorem exists_lost_of_verdict (h : s.verdict = none)
    (hended : ∀ j ∈ s.jobs, ∃ o, j = .ended o) : ∃ j ∈ s.jobs, j.isLost = true := by
  rw [verdict] at h
  generalize s.jobs = jobs at h hended
  induction jobs with
  | nil => exact nomatch h
  | cons j js ih =>
    obtain ⟨⟨o, hj⟩, hjs⟩ := List.forall_mem_cons.mp hended
    rcases isLost_or_result hj with hlost | ⟨r, hr⟩
    · exact ⟨_, List.mem_cons_self, hlost⟩
    · have hnone : js.mapM Job.result? = none := by
        rw [List.mapM_cons, hr] at h
        cases hm : js.mapM Job.result? with
        | none => rfl
        | some rs => rw [hm] at h; exact nomatch h
      obtain ⟨j, hj, hlost⟩ := ih hnone hjs
      exact ⟨j, List.mem_cons_of_mem _ hj, hlost⟩

theorem Tidy.ended_of_running (h : Tidy workers s) (hbegun : s.begun = s.jobs.length)
    (hrunning : s.running = 0) : ∀ j ∈ s.jobs, ∃ o, j = .ended o := by
  intro j hj
  cases j with
  | ended o => exact ⟨o, rfl⟩
  | left p =>
    obtain ⟨i, hi⟩ := List.getElem?_of_mem hj
    have hlt := (List.getElem?_eq_some_iff.mp hi).1
    have hturn := (h.mem_turns i).mpr ⟨hbegun ▸ hlt, p, hi⟩
    have hnone := List.length_eq_zero_iff.mp ((length_turns s).trans hrunning)
    rw [hnone] at hturn
    exact nomatch hturn

/-- While units take turns, a unit with a worker is at work. -/
theorem isWorking_eq_hasWorker {u : Stage Body α} (hu : u ∈ s.call.units) :
    u.isWorking = u.hasWorker := by
  obtain ⟨i, hi⟩ := List.getElem?_of_mem hu
  rw [getElem?_units_call] at hi
  obtain ⟨j, -, rfl⟩ := Option.map_eq_some_iff.mp hi
  cases j with
  | ended o => rfl
  | left p =>
    rw [stage]
    split <;> rfl

end State

variable {wanted : Nat} {units : List (Program (Site Body) α)}

theorem Floor.running_singleton (free : Nat) (c : Call Body α) :
    (Floor.mk free [c]).running = c.units.countP (·.isWorking) := by
  simp [running]

/-- While units take turns, those that will have a turn are at work. -/
theorem State.Tidy.running_floor {s : State Body α} {log : List (Nat × Act Body α)}
    (ht : s.Tidy (workersFor wanted))
    (hsched : Schedule (.start wanted [units]) log (s.floor (workersFor wanted))) :
    (s.floor (workersFor wanted)).running = s.running := by
  have hworkers := hsched.workers_start
  have hle := ht.running_le
  have hoccupied : (s.floor (workersFor wanted)).occupied = s.running := by
    have hfree : (s.floor (workersFor wanted)).free = workersFor wanted - s.running := rfl
    omega
  rw [← hoccupied, Floor.running, Floor.occupied]
  show ([s.call].map _).sum = ([s.call].map _).sum
  rw [List.map_singleton, List.map_singleton, List.countP_congr fun u hu => by
    rw [isWorking_eq_hasWorker hu]]

/-- Units that have all come to results: the call returns them. -/
theorem State.exists_returns {s : State Body α} {log : List (Nat × Act Body α)}
    {rs : List (Except Error α)} (hbegun : s.begun = s.jobs.length)
    (hsched : Schedule (.start wanted [units]) log (s.floor (workersFor wanted)))
    (hrs : s.verdict = some rs) :
    ∃ log' f, Schedule (.start wanted [units]) (log' ++ [(0, .returns (collect rs))]) f ∧
      f.running = 0 := by
  have hjobs := jobs_of_verdict hrs
  have hcall : s.call.Orderly := hsched.orderly _ (List.mem_singleton_self _)
  have hlen : s.call.begun = s.call.units.length := hbegun.trans List.length_mapIdx.symm
  have hunits : s.call.units = rs.map fun r => .ended (r.mapError .error) := by
    refine List.ext_getElem? fun i => ?_
    rw [getElem?_units_call, hjobs, List.getElem?_map, List.getElem?_map]
    cases rs[i]? <;> rfl
  obtain ⟨log', c', hrun, hsame, hquiet⟩ := hcall.exists_returns rfl hlen hunits
  have hall := hsched.trans (Schedule.of_run (f := s.floor (workersFor wanted)) (k := 0) hrun rfl
    hquiet)
  rw [List.map_append, ← List.append_assoc] at hall
  refine ⟨_, _, hall, (Floor.running_singleton _ c').trans ?_⟩
  rw [hsame, hunits, List.countP_map]
  exact List.countP_eq_zero.mpr fun r _ => Bool.false_ne_true

/-- A unit is lost: the call says so. -/
theorem State.Tidy.exists_lost {s : State Body α} {log : List (Nat × Act Body α)}
    (ht : s.Tidy (workersFor wanted)) (hbegun : s.begun = s.jobs.length)
    (hsched : Schedule (.start wanted [units]) log (s.floor (workersFor wanted)))
    (hlost : ∃ j ∈ s.jobs, j.isLost = true) :
    ∃ f, Schedule (.start wanted [units]) (log ++ [(0, .returns (.error lostWorker))]) f ∧
      f.running = s.running := by
  obtain ⟨j, hj, hlost⟩ := hlost
  obtain ⟨i, hi⟩ := List.getElem?_of_mem hj
  match j, hlost, hi with
  | .ended (.error (.overflow o)), _, hi =>
    have hunit : s.call.units[i]? = some (.ended (.error (.overflow o))) := by
      rw [getElem?_units_call, hi]
      rfl
    have hawaited : i ∈ s.call.awaited :=
      List.mem_range.mpr (hbegun ▸ (List.getElem?_eq_some_iff.mp hi).1)
    have hstep := Call.Step.lost rfl (hbegun.trans List.length_mapIdx.symm) hawaited hunit
    refine ⟨_, hsched.trans (.step (.act rfl hstep (Nat.zero_le _)) (.refl _)), ?_⟩
    rw [← ht.running_floor hsched, floor, Floor.running_singleton]
    exact Floor.running_singleton _ _

/-- What a call comes to with its units taking turns, it comes to by a schedule of the pool, after
    which those units are at work that it has given up. -/
theorem exists_schedule_run (wanted : Nat) (h : Handler (Site Body) σ)
    (units : List (Program (Site Body) α)) (x : σ) :
    ∃ log f, Schedule (.start wanted [units])
        (log ++ [(0, .returns (run (workersFor wanted) 0 h units x).1.result)]) f ∧
      f.running = (run (workersFor wanted) 0 h units x).1.givenUp := by
  unfold run
  by_cases hunits : units.isEmpty = true
  · rw [if_pos hunits, List.isEmpty_iff.mp hunits]
    exact ⟨[], _, .step (.act (k := 0) rfl (.returns rfl rfl rfl) (Nat.zero_le _)) (.refl _), rfl⟩
  · rw [if_neg hunits]
    have hone : 1 ≤ workersFor wanted := Nat.le_max_right _ _
    obtain ⟨ht, log₁, hsched₁⟩ := (State.tidy_start (workersFor wanted) units).exists_beginUnits
    obtain ⟨hs, ⟨log₂, hsched₂⟩, hbegun, hend⟩ := ht.exists_settle hone h x
    have hsched := hsched₁.trans hsched₂
    rw [State.floor_start] at hsched
    dsimp only
    split
    · next rs hv => exact State.exists_returns hbegun hsched hv
    · next hv =>
      have hlost := hend.elim id fun hrunning =>
        State.exists_lost_of_verdict hv (hs.ended_of_running hbegun hrunning)
      obtain ⟨f, hf⟩ := hs.exists_lost hbegun hsched hlost
      exact ⟨_, f, hf⟩

end Pool

end LedgerSearch
