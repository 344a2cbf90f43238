import Mathlib
import LedgerSearch.Proofs.Program.Trace

/-
  A call of a pool, step by step. Its units begin in order, each works on a worker of its own until
  it comes to an outcome, and the call takes the outcomes in whatever order they are there. A call
  that returns has taken an outcome of every unit, or that of a lost one (`Call.Run.returned`).
-/

namespace LedgerSearch

open Program

namespace Pool

variable {Body α : Type}

/-! ## Units -/

/-- How far a unit is. -/
inductive Stage (Body α : Type) where
  | queued (p : Program (Site Body) α)
  | working (p : Program (Site Body) α)
  /-- It has come to its outcome and not left its worker. -/
  | leaving (o : Outcome α)
  | ended (o : Outcome α)
  /-- It was cancelled before it came to an outcome. -/
  | cancelled

/-- What a unit does, or what is done to it. -/
inductive Deed (Body α : Type) where
  | begins
  | asks (ev : Event (Site Body))
  | ends (o : Outcome α)
  | leaves
  | cancelled

namespace Stage

/-- The task still has something to do. -/
def isWorking : Stage Body α → Bool
  | .working _ => true
  | .queued _ | .leaving _ | .ended _ | .cancelled => false

/-- The task holds a worker, which it gives back only when it leaves. -/
def hasWorker : Stage Body α → Bool
  | .working _ | .leaving _ => true
  | .queued _ | .ended _ | .cancelled => false

/-- What a task can do in one step. -/
inductive Step : Stage Body α → Deed Body α → Stage Body α → Prop
  | begins (p : Program (Site Body) α) : Step (.queued p) .begins (.working p)
  | asks {r : Site.Request Body} {next : Site.Reply r → Program (Site Body) α}
      (reply : Site.Reply r) :
      Step (.working (.ask r next)) (.asks ⟨r, reply⟩) (.working (next reply))
  | ends {p : Program (Site Body) α} {o : Outcome α} :
      p = .ofOutcome o → Step (.working p) (.ends o) (.leaving o)
  | leaves (o : Outcome α) : Step (.leaving o) .leaves (.ended o)
  | cancelled (p : Program (Site Body) α) : Step (.working p) .cancelled .cancelled

/-- The deeds of a task over many steps. -/
inductive Run : Stage Body α → List (Deed Body α) → Stage Body α → Prop
  | refl (s : Stage Body α) : Run s [] s
  | step {s s' s'' : Stage Body α} {d : Deed Body α} {ds : List (Deed Body α)} :
      s.Step d s' → Run s' ds s'' → Run s (d :: ds) s''

variable {p : Program (Site Body) α} {o o' : Outcome α} {s s' s'' : Stage Body α}
  {ds ds' : List (Deed Body α)}

theorem Run.trans (h : s.Run ds s') (h' : s'.Run ds' s'') : s.Run (ds ++ ds') s'' := by
  induction h with
  | refl => exact h'
  | step hstep _ ih => exact .step hstep (ih h')

theorem Run.of_ended (h : Run (.ended o) ds s) : ds = [] ∧ s = .ended o := by
  cases h with
  | refl => exact ⟨rfl, rfl⟩
  | step hstep _ => exact nomatch hstep

theorem Run.of_cancelled (h : Run .cancelled ds s) : s = .cancelled := by
  cases h with
  | refl => rfl
  | step hstep _ => exact nomatch hstep

theorem Run.of_leaving (h : Run (.leaving o) ds (.ended o')) : ds = [.leaves] ∧ o' = o := by
  cases h with
  | step hstep hrun =>
    cases hstep with
    | leaves =>
      obtain ⟨rfl, ho⟩ := hrun.of_ended
      exact ⟨rfl, Stage.ended.inj ho⟩

/-- A unit at work that is over later has taken a path to its outcome. -/
theorem Run.of_working (h : Run (.working p) ds (.ended o)) :
    ∃ es, ds = es.map .asks ++ [.ends o, .leaves] ∧ p.Path es (.ofOutcome o) := by
  generalize hs : Stage.working p = s at h
  generalize ht : Stage.ended o = t at h
  induction h generalizing p with
  | refl =>
    subst hs
    exact nomatch ht
  | step hstep hrun ih =>
    subst hs
    cases hstep with
    | asks reply =>
      obtain ⟨es, rfl, hp⟩ := ih rfl ht
      exact ⟨_ :: es, rfl, .ask (I := Site Body) reply hp⟩
    | ends hp =>
      subst hp ht
      obtain ⟨rfl, rfl⟩ := hrun.of_leaving
      exact ⟨[], rfl, .here _⟩
    | cancelled =>
      subst ht
      exact nomatch hrun.of_cancelled

/-- The deeds of a unit that ran once, by these requests to this outcome. -/
def life (es : List (Event (Site Body))) (o : Outcome α) : List (Deed Body α) :=
  .begins :: (es.map .asks ++ [.ends o, .leaves])

theorem Run.of_queued (h : Run (.queued p) ds (.ended o)) :
    ∃ es, ds = life es o ∧ p.Path es (.ofOutcome o) := by
  cases h with
  | step hstep hrun =>
    cases hstep with
    | begins =>
      obtain ⟨es, rfl, hp⟩ := hrun.of_working
      exact ⟨es, rfl, hp⟩

end Stage

/-! ## Calls -/

/-- How far a call is. -/
structure Call (Body α : Type) where
  units : List (Stage Body α)
  /-- How many units have begun. -/
  begun : Nat
  /-- The units that have begun and whose outcomes have not been taken. -/
  awaited : List Nat
  /-- The results taken, each in the place of its unit. -/
  slots : List (Option (Except Error α))
  /-- What the call has returned. -/
  result : Option (Except Error (List α))

/-- What happens in a call. -/
inductive Act (Body α : Type) where
  | unit (i : Nat) (d : Deed Body α)
  /-- The call takes the result of a unit. -/
  | joined (i : Nat)
  | returns (r : Except Error (List α))

/-- What a unit does of its own accord once it has begun. -/
def Deed.IsWork : Deed Body α → Prop
  | .asks _ | .ends _ | .leaves => True
  | .begins | .cancelled => False

/-- What the pool reports of a unit that handed nothing back. -/
def missingResult : Error := .other "worker result missing"

namespace Call

/-- A call whose units wait for workers. -/
def start (units : List (Program (Site Body) α)) : Call Body α where
  units := units.map .queued
  begun := 0
  awaited := []
  slots := units.map fun _ => none
  result := none

/-- The call with another stage of one unit. -/
def setUnit (c : Call Body α) (i : Nat) (s : Stage Body α) : Call Body α :=
  { c with units := c.units.set i s }

/-- The call with its next unit, which is this one, at work. -/
def beginUnit (c : Call Body α) (p : Program (Site Body) α) : Call Body α :=
  { c with units := c.units.set c.begun (.working p), begun := c.begun + 1
           awaited := c.awaited ++ [c.begun] }

theorem setUnit_setUnit (c : Call Body α) (i : Nat) (s s' : Stage Body α) :
    (c.setUnit i s).setUnit i s' = c.setUnit i s' := by
  rw [setUnit, setUnit, setUnit, List.set_set]

theorem setUnit_self {c : Call Body α} {i : Nat} {s : Stage Body α} (hi : c.units[i]? = some s) :
    c.setUnit i s = c := by
  obtain ⟨hlt, rfl⟩ := List.getElem?_eq_some_iff.mp hi
  rw [setUnit, List.set_getElem_self]

theorem getElem?_setUnit {c : Call Body α} {i : Nat} (hi : i < c.units.length)
    (s : Stage Body α) : (c.setUnit i s).units[i]? = some s := List.getElem?_set_self hi

theorem getElem?_setUnit_ne {c : Call Body α} {i j : Nat} (hij : i ≠ j) (s : Stage Body α) :
    (c.setUnit i s).units[j]? = c.units[j]? := List.getElem?_set_ne hij

theorem length_setUnit (c : Call Body α) (i : Nat) (s : Stage Body α) :
    (c.setUnit i s).units.length = c.units.length := List.length_set

/-- The results that the call has taken, in the order of the units. -/
def gathered (c : Call Body α) : Except Error (List α) :=
  collect (c.slots.map (·.getD (.error missingResult)))

/-- Whatever can go on goes on at any time; results are taken once the last unit has begun. A call
    that finds a lost unit returns at once, and the units that it has not taken may be cancelled
    from then on. -/
inductive Step : Call Body α → Act Body α → Call Body α → Prop
  | begins {c : Call Body α} {p : Program (Site Body) α} :
      c.result = none → c.units[c.begun]? = some (.queued p) →
      Step c (.unit c.begun .begins) (c.beginUnit p)
  | works {c : Call Body α} {i : Nat} {s s' : Stage Body α} {d : Deed Body α} :
      c.units[i]? = some s → d.IsWork → s.Step d s' →
      Step c (.unit i d) (c.setUnit i s')
  | joined {c : Call Body α} {i : Nat} {r : Except Error α} :
      c.result = none → c.begun = c.units.length → i ∈ c.awaited →
      c.units[i]? = some (.ended (r.mapError .error)) →
      Step c (.joined i)
        { c with awaited := c.awaited.erase i, slots := c.slots.set i (some r) }
  | lost {c : Call Body α} {i : Nat} {o : Overflow} :
      c.result = none → c.begun = c.units.length → i ∈ c.awaited →
      c.units[i]? = some (.ended (.error (.overflow o))) →
      Step c (.returns (.error lostWorker))
        { c with awaited := c.awaited.erase i, result := some (.error lostWorker) }
  | returns {c : Call Body α} :
      c.result = none → c.begun = c.units.length → c.awaited = [] →
      Step c (.returns c.gathered) { c with result := some c.gathered }
  | cancelled {c : Call Body α} {i : Nat} {p : Program (Site Body) α} :
      c.result ≠ none → i ∈ c.awaited → c.units[i]? = some (.working p) →
      Step c (.unit i .cancelled) (c.setUnit i .cancelled)

/-- The acts of a call over many steps. -/
inductive Run : Call Body α → List (Act Body α) → Call Body α → Prop
  | refl (c : Call Body α) : Run c [] c
  | step {c c' c'' : Call Body α} {a : Act Body α} {log : List (Act Body α)} :
      c.Step a c' → Run c' log c'' → Run c (a :: log) c''

theorem run_append {c c'' : Call Body α} {log log' : List (Act Body α)} :
    c.Run (log ++ log') c'' ↔ ∃ c', c.Run log c' ∧ c'.Run log' c'' := by
  constructor
  · intro h
    induction log generalizing c with
    | nil => exact ⟨c, .refl c, h⟩
    | cons a log ih =>
      cases h with
      | step hstep hrun =>
        obtain ⟨c', h₁, h₂⟩ := ih hrun
        exact ⟨c', .step hstep h₁, h₂⟩
  · intro h
    obtain ⟨c', h₁, h₂⟩ := h
    induction h₁ with
    | refl => exact h₂
    | step hstep _ ih => exact .step hstep (ih h₂)

theorem run_cons {c c'' : Call Body α} {a : Act Body α} {log : List (Act Body α)} :
    c.Run (a :: log) c'' ↔ ∃ c', c.Step a c' ∧ c'.Run log c'' := by
  constructor
  · intro h
    cases h with
    | step hstep hrun => exact ⟨_, hstep, hrun⟩
  · intro h
    obtain ⟨c', hstep, hrun⟩ := h
    exact .step hstep hrun

/-! ## The units of a call -/

end Call

/-- What the act is to that unit. -/
def Act.deed? (i : Nat) : Act Body α → Option (Deed Body α)
  | .unit j d => if j = i then some d else none
  | .joined _ | .returns _ => none

/-- The deeds of a unit in what happened. -/
def deeds (i : Nat) (log : List (Act Body α)) : List (Deed Body α) := log.filterMap (Act.deed? i)

namespace Call

variable {c c' : Call Body α} {a : Act Body α} {log : List (Act Body α)} {i : Nat}

/-- A unit that another one's deed leaves as it is. -/
theorem run_set_unit {units : List (Stage Body α)} {s t t' : Stage Body α} {d : Deed Body α}
    {j : Nat} (hj : units[j]? = some t) (hstep : t.Step d t') (hi : units[i]? = some s) :
    ∃ s', (units.set j t')[i]? = some s' ∧
      s.Run ((if j = i then some d else none).toList) s' := by
  have hlt := (List.getElem?_eq_some_iff.mp hi).1
  by_cases hji : j = i
  · subst hji
    rw [hj] at hi
    obtain rfl := Option.some.inj hi
    rw [if_pos rfl]
    exact ⟨t', List.getElem?_set_self hlt, .step hstep (.refl t')⟩
  · rw [if_neg hji, List.getElem?_set_ne hji]
    exact ⟨s, hi, .refl s⟩

/-- What one act is to a unit. -/
theorem Step.unit {s : Stage Body α} (h : c.Step a c') (hi : c.units[i]? = some s) :
    ∃ s', c'.units[i]? = some s' ∧ s.Run (a.deed? i).toList s' := by
  cases h with
  | begins _ hp => exact run_set_unit hp (.begins _) hi
  | works hs _ hstep => exact run_set_unit hs hstep hi
  | joined => exact ⟨s, hi, .refl s⟩
  | lost => exact ⟨s, hi, .refl s⟩
  | returns => exact ⟨s, hi, .refl s⟩
  | cancelled _ _ hp => exact run_set_unit hp (.cancelled _) hi

/-- What happened in a call is to each unit a run of its own. -/
theorem Run.unit {s : Stage Body α} (h : c.Run log c') (hi : c.units[i]? = some s) :
    ∃ s', c'.units[i]? = some s' ∧ s.Run (deeds i log) s' := by
  induction h generalizing s with
  | refl => exact ⟨s, hi, .refl s⟩
  | @step c c₁ c₂ a log hstep _ ih =>
    obtain ⟨s₁, hs₁, hfirst⟩ := hstep.unit hi
    obtain ⟨s₂, hs₂, hrest⟩ := ih hs₁
    refine ⟨s₂, hs₂, ?_⟩
    have hdeeds : deeds i (a :: log) = (a.deed? i).toList ++ deeds i log := by
      rw [deeds, List.filterMap_cons]
      cases a.deed? i <;> rfl
    rw [hdeeds]
    exact hfirst.trans hrest

/-! ## Where a call is -/

/-- The units from the next one on wait, the others have begun; a result is in its place once the
    call has taken it; and a call that has returned has taken all results, or come upon a lost
    unit. -/
structure Orderly (c : Call Body α) : Prop where
  begun_le : c.begun ≤ c.units.length
  queued : ∀ i, c.begun ≤ i → i < c.units.length → ∃ p, c.units[i]? = some (.queued p)
  begun : ∀ i, i < c.begun → ∀ p, c.units[i]? ≠ some (.queued p)
  awaited_lt : ∀ i ∈ c.awaited, i < c.begun
  nodup : c.awaited.Nodup
  length_slots : c.slots.length = c.units.length
  slot : c.result = none → ∀ i, i < c.begun → i ∉ c.awaited →
    ∃ r, c.units[i]? = some (.ended (r.mapError .error)) ∧ c.slots[i]? = some (some r)
  cancelled : c.result = none → .cancelled ∉ c.units
  returned : ∀ r, c.result = some r → c.begun = c.units.length ∧
    ((∀ s ∈ c.units, ∃ o, s = .ended o) ∨
      r = .error lostWorker ∧ ∃ o, .ended (.error (.overflow o)) ∈ c.units)

theorem orderly_start (units : List (Program (Site Body) α)) : (start units).Orderly where
  begun_le := Nat.zero_le _
  queued i _ hi := by
    have hlt : i < units.length := by simpa [start] using hi
    exact ⟨units[i], by simp [start, hlt]⟩
  begun i hi := absurd hi (Nat.not_lt_zero i)
  awaited_lt := nofun
  nodup := List.nodup_nil
  length_slots := by simp [start]
  slot _ i hi := absurd hi (Nat.not_lt_zero i)
  cancelled _ hmem := by
    obtain ⟨p, -, hp⟩ := List.mem_map.mp hmem
    exact nomatch hp
  returned := nofun

theorem hasWorker_of_work {s s' : Stage Body α} {d : Deed Body α} (hd : d.IsWork)
    (h : s.Step d s') :
    s.hasWorker = true ∧ (∀ p, s' ≠ .queued p) ∧ s' ≠ .cancelled := by
  cases h with
  | begins => exact hd.elim
  | asks => exact ⟨rfl, nofun, nofun⟩
  | ends => exact ⟨rfl, nofun, nofun⟩
  | leaves => exact ⟨rfl, nofun, nofun⟩
  | cancelled => exact hd.elim

/-- A unit with a worker goes on. -/
theorem Orderly.set_unit {s s' : Stage Body α} (h : c.Orderly) (hi : c.units[i]? = some s)
    (hs : s.hasWorker = true) (hqueued : ∀ p, s' ≠ .queued p)
    (hcancelled : c.result = none → s' ≠ .cancelled) :
    (c.setUnit i s').Orderly := by
  have hlen := c.length_setUnit i s'
  have hlt := (List.getElem?_eq_some_iff.mp hi).1
  -- the unit that goes on has a worker, so that one without is another
  have hne : ∀ (j : Nat) (t : Stage Body α), c.units[j]? = some t → t.hasWorker = false →
      (c.setUnit i s').units[j]? = some t := by
    intro j t hj ht
    rw [getElem?_setUnit_ne, hj]
    rintro rfl
    rw [hi] at hj
    rw [← Option.some.inj hj, hs] at ht
    exact nomatch ht
  refine ⟨by rw [hlen]; exact h.begun_le, fun j hj hjl => ?_, fun j hj p => ?_, h.awaited_lt,
    h.nodup, by rw [hlen]; exact h.length_slots, fun hr j hj hja => ?_, fun hr hmem => ?_,
    fun r hr => ?_⟩
  · obtain ⟨p, hp⟩ := h.queued j hj (hlen ▸ hjl)
    exact ⟨p, hne j _ hp rfl⟩
  · by_cases hij : i = j
    · subst hij
      rw [getElem?_setUnit hlt]
      exact fun he => hqueued p (Option.some.inj he)
    · rw [getElem?_setUnit_ne hij]
      exact h.begun j hj p
  · obtain ⟨r, hended, hslot⟩ := h.slot hr j hj hja
    exact ⟨r, hne j _ hended rfl, hslot⟩
  · rcases List.mem_or_eq_of_mem_set hmem with hmem | heq
    · exact h.cancelled hr hmem
    · exact hcancelled hr heq.symm
  · obtain ⟨hbegun, hended | ⟨hlost, o, ho⟩⟩ := h.returned r hr
    · obtain ⟨o, rfl⟩ := hended s (List.mem_of_getElem? hi)
      exact nomatch hs
    · obtain ⟨j, hj⟩ := List.getElem?_of_mem ho
      exact ⟨hbegun.trans hlen.symm, .inr ⟨hlost, o, List.mem_of_getElem? (hne j _ hj rfl)⟩⟩

/-- A result that is taken goes to its place. -/
theorem Orderly.join {r : Except Error α} (h : c.Orderly) (hr : c.result = none)
    (hended : c.units[i]? = some (.ended (r.mapError .error))) :
    Orderly { c with awaited := c.awaited.erase i, slots := c.slots.set i (some r) } where
  begun_le := h.begun_le
  queued := h.queued
  begun := h.begun
  awaited_lt j hj := h.awaited_lt j (List.mem_of_mem_erase hj)
  nodup := h.nodup.erase i
  length_slots := List.length_set.trans h.length_slots
  slot _ j hj hja := by
    by_cases hij : i = j
    · subst hij
      have hlt : i < c.slots.length := h.length_slots ▸ (List.getElem?_eq_some_iff.mp hended).1
      exact ⟨r, hended, List.getElem?_set_self hlt⟩
    · have hja' : j ∉ c.awaited := fun hmem =>
        hja ((List.mem_erase_of_ne (Ne.symm hij)).mpr hmem)
      obtain ⟨r', hended', hslot⟩ := h.slot hr j hj hja'
      exact ⟨r', hended', by rw [← hslot]; exact List.getElem?_set_ne hij⟩
  cancelled := h.cancelled
  returned r' hr' := by rw [hr] at hr'; exact nomatch hr'

/-- The next unit begins. -/
theorem Orderly.begin {p : Program (Site Body) α} (h : c.Orderly) (hr : c.result = none)
    (hp : c.units[c.begun]? = some (.queued p)) :
    (c.beginUnit p).Orderly := by
  have hlen := c.length_setUnit c.begun (.working p)
  have hlt := (List.getElem?_eq_some_iff.mp hp).1
  have hne : ∀ j ≠ c.begun, (c.beginUnit p).units[j]? = c.units[j]? := fun j hj =>
    getElem?_setUnit_ne (Ne.symm hj) _
  refine ⟨Nat.succ_le_of_lt (Nat.lt_of_lt_of_eq hlt hlen.symm),
    fun j (hj : c.begun + 1 ≤ j) hjl => ?_, fun j (hj : j < c.begun + 1) q => ?_, fun j hj => ?_,
    ?_, h.length_slots.trans hlen.symm, fun _ j (hj : j < c.begun + 1) hja => ?_,
    fun _ hmem => ?_, fun r hr' => ?_⟩
  · obtain ⟨q, hq⟩ := h.queued j (by omega) (Nat.lt_of_lt_of_eq hjl hlen)
    exact ⟨q, (hne j (by omega)).trans hq⟩
  · by_cases hj' : j = c.begun
    · rw [hj']
      intro he
      exact nomatch (getElem?_setUnit hlt (.working p)).symm.trans he
    · rw [hne j hj']
      exact h.begun j (by omega) q
  · rcases List.mem_append.mp hj with hj | hj
    · exact Nat.lt_succ_of_lt (h.awaited_lt j hj)
    · rw [List.mem_singleton.mp hj]
      exact Nat.lt_succ_self _
  · refine List.nodup_append.mpr ⟨h.nodup, List.nodup_singleton _, fun j hj k hk => ?_⟩
    rw [List.mem_singleton.mp hk]
    exact Nat.ne_of_lt (h.awaited_lt j hj)
  · rw [beginUnit, List.mem_append, List.mem_singleton, not_or] at hja
    obtain ⟨r, hended, hslot⟩ := h.slot hr j (by omega) hja.1
    exact ⟨r, (hne j hja.2).trans hended, hslot⟩
  · rcases List.mem_or_eq_of_mem_set hmem with hmem | heq
    · exact h.cancelled hr hmem
    · exact nomatch heq
  · exact nomatch hr.symm.trans hr'

/-- All units of a call that has no more to take are over. -/
theorem Orderly.ended (h : c.Orderly) (hr : c.result = none) (hbegun : c.begun = c.units.length)
    (hawaited : c.awaited = []) (hi : i < c.units.length) :
    ∃ r, c.units[i]? = some (.ended (r.mapError .error)) ∧ c.slots[i]? = some (some r) :=
  h.slot hr i (hbegun ▸ hi) (by rw [hawaited]; exact List.not_mem_nil)

theorem Orderly.step (h : c.Orderly) (hstep : c.Step a c') : c'.Orderly := by
  cases hstep with
  | begins hr hp => exact h.begin hr hp
  | works hi hd hs =>
    obtain ⟨hworker, hqueued, hcancelled⟩ := hasWorker_of_work hd hs
    exact h.set_unit hi hworker hqueued fun _ => hcancelled
  | joined hr _ _ hended => exact h.join hr hended
  | lost hr hbegun _ hended =>
    refine { h with
      awaited_lt := fun j hj => h.awaited_lt j (List.mem_of_mem_erase hj)
      nodup := h.nodup.erase _
      slot := nofun
      cancelled := nofun
      returned := fun r hr' => ?_ }
    obtain rfl := Option.some.inj hr'
    exact ⟨hbegun, .inr ⟨rfl, _, List.mem_of_getElem? hended⟩⟩
  | returns hr hbegun hawaited =>
    refine { h with
      slot := nofun
      cancelled := nofun
      returned := fun r _ => ⟨hbegun, .inl fun s hs => ?_⟩ }
    obtain ⟨i, hi⟩ := List.getElem?_of_mem hs
    obtain ⟨r', hended, -⟩ := h.ended hr hbegun hawaited (List.getElem?_eq_some_iff.mp hi).1
    exact ⟨_, Option.some.inj (hi.symm.trans hended)⟩
  | cancelled hr _ hi => exact h.set_unit hi rfl nofun fun hnone => absurd hnone hr

theorem Orderly.run (h : c.Orderly) (hrun : c.Run log c') : c'.Orderly := by
  induction hrun with
  | refl => exact h
  | step hstep _ ih => exact ih (h.step hstep)

/-! ## What a call returns -/

/-- The first error in a list of results, or all of their values. -/
theorem collect_cases (rs : List (Except Error α)) :
    (∃ as, rs = as.map .ok ∧ collect rs = .ok as) ∨
      ∃ (i : Nat) (e : Error), rs[i]? = some (.error e) ∧
        (∀ j < i, ∃ a, rs[j]? = some (.ok a)) ∧ collect rs = .error e := by
  induction rs with
  | nil => exact .inl ⟨[], rfl, rfl⟩
  | cons r rs ih =>
    rw [collect_cons]
    cases r with
    | error e => exact .inr ⟨0, e, rfl, fun j hj => absurd hj (Nat.not_lt_zero j), rfl⟩
    | ok a =>
      rcases ih with ⟨as, rfl, hcol⟩ | ⟨i, e, hi, hfirst, hcol⟩
      · exact .inl ⟨a :: as, rfl, by rw [hcol]; rfl⟩
      · refine .inr ⟨i + 1, e, hi, fun j hj => ?_, by rw [hcol]; rfl⟩
        cases j with
        | zero => exact ⟨a, rfl⟩
        | succ j => exact hfirst j (Nat.lt_of_succ_lt_succ hj)

theorem mapError_injective {r r' : Except Error α}
    (h : r.mapError Failure.error = r'.mapError Failure.error) : r = r' := by
  cases r with
  | ok a =>
    cases r' with
    | ok b => rw [Except.ok.inj h]
    | error e => exact nomatch h
  | error e =>
    cases r' with
    | ok b => exact nomatch h
    | error e' => rw [Failure.error.inj (Except.error.inj h)]

/-- A call that has no more to take has the results of all units, each in its place. -/
theorem Orderly.gathered_eq (h : c.Orderly) (hr : c.result = none)
    (hbegun : c.begun = c.units.length) (hawaited : c.awaited = []) {rs : List (Except Error α)}
    (hrs : c.units = rs.map fun r => .ended (r.mapError .error)) : c.gathered = collect rs := by
  have hlen : c.units.length = rs.length := by rw [hrs, List.length_map]
  have hslots : c.slots = rs.map some := by
    refine List.ext_getElem? fun i => ?_
    by_cases hi : i < rs.length
    · obtain ⟨r, hended, hslot⟩ := h.ended hr hbegun hawaited (hlen ▸ hi)
      rw [hrs, List.getElem?_map, List.getElem?_eq_getElem hi] at hended
      have hr' : rs[i] = r := mapError_injective (Stage.ended.inj (Option.some.inj hended))
      rw [hslot, List.getElem?_map, List.getElem?_eq_getElem hi, ← hr']
      rfl
    · have hle := Nat.not_lt.mp hi
      rw [List.getElem?_eq_none (by rw [h.length_slots, hlen]; exact hle),
        List.getElem?_eq_none (by rw [List.length_map]; exact hle)]
  rw [gathered, hslots, List.map_map]
  exact congrArg collect (List.map_id rs)

/-- How a unit ran: its requests with their answers, and its result. -/
structure UnitRun (Body α : Type) where
  trace : List (Event (Site Body))
  result : Except Error α

/-- The deeds of a unit that ran like that, once. -/
def UnitRun.deeds (u : UnitRun Body α) : List (Deed Body α) :=
  Stage.life u.trace (u.result.mapError .error)

theorem Step.length_units (h : c.Step a c') : c'.units.length = c.units.length := by
  cases h with
  | begins | works | cancelled => exact List.length_set
  | joined | lost | returns => rfl

theorem Run.length_units (h : c.Run log c') : c'.units.length = c.units.length := by
  induction h with
  | refl => rfl
  | step hstep _ ih => rw [ih, hstep.length_units]

theorem Run.length_start {units : List (Program (Site Body) α)} (h : (start units).Run log c) :
    c.units.length = units.length := by
  rw [h.length_units, start, List.length_map]

theorem Run.exists_unit {units : List (Program (Site Body) α)} {s : Stage Body α}
    (h : (start units).Run log c) (hi : c.units[i]? = some s) : ∃ p, units[i]? = some p := by
  have hlt := (List.getElem?_eq_some_iff.mp hi).1
  rw [h.length_start] at hlt
  exact ⟨_, List.getElem?_eq_getElem hlt⟩

/-- A unit that is over has lived, since it waited in the beginning. -/
theorem Run.life {units : List (Program (Site Body) α)} {p : Program (Site Body) α}
    {o : Outcome α} (h : (start units).Run log c) (hp : units[i]? = some p)
    (hended : c.units[i]? = some (.ended o)) :
    ∃ es, deeds i log = Stage.life es o ∧ p.Path es (.ofOutcome o) := by
  have hqueued : (start units).units[i]? = some (.queued p) := by
    rw [start, List.getElem?_map, hp]
    rfl
  obtain ⟨s, hs, hrun⟩ := h.unit hqueued
  obtain rfl := Option.some.inj (hs.symm.trans hended)
  exact hrun.of_queued

/-- A call returns the results of its units, each of which has run once and is over, or reports a
    lost one. -/
theorem Run.returned {units : List (Program (Site Body) α)} {before after : List (Act Body α)}
    {r : Except Error (List α)} (h : (start units).Run (before ++ .returns r :: after) c) :
    (∃ runs : List (UnitRun Body α),
      List.Forall₂ (fun p u => p.Path u.trace (.ofResult u.result)) units runs ∧
      (∀ i u, runs[i]? = some u → deeds i before = u.deeds ∧ deeds i after = []) ∧
      r = collect (runs.map (·.result))) ∨
    (r = .error lostWorker ∧ ∃ i p es o, units[i]? = some p ∧ p.Path es (.stop (.overflow o)) ∧
      deeds i before = Stage.life es (.error (.overflow o))) := by
  obtain ⟨c₁, hbefore, hrest⟩ := run_append.mp h
  obtain ⟨c₂, hstep, hafter⟩ := run_cons.mp hrest
  have hc₁ := (orderly_start units).run hbefore
  cases hstep with
  | lost _ _ _ hended =>
    obtain ⟨p, hp⟩ := hbefore.exists_unit hended
    obtain ⟨es, hdeeds, hpath⟩ := hbefore.life hp hended
    exact .inr ⟨rfl, _, p, es, _, hp, hpath, hdeeds⟩
  | returns hr hbegun hawaited =>
    -- a call returns when it has taken a result from every unit, which has then come to its end
    have hunit : ∀ i : Fin units.length, ∃ u : UnitRun Body α,
        units[i].Path u.trace (.ofResult u.result) ∧ deeds i before = u.deeds ∧
          c₁.units[i.val]? = some (.ended (u.result.mapError .error)) := by
      intro i
      have hlt : i.val < c₁.units.length := by
        rw [hbefore.length_start]
        exact i.isLt
      obtain ⟨r, hended, -⟩ := hc₁.ended hr hbegun hawaited hlt
      obtain ⟨es, hdeeds, hpath⟩ := hbefore.life (List.getElem?_eq_getElem i.isLt) hended
      rw [← ofResult_eq_ofOutcome] at hpath
      exact ⟨⟨es, r⟩, hpath, hdeeds, hended⟩
    choose run hpath hdeeds hended using hunit
    refine .inl ⟨List.ofFn run, ?_, fun i u hu => ?_, ?_⟩
    · refine List.forall₂_iff_get.mpr ⟨by simp, fun i hi _ => ?_⟩
      have hrun := hpath ⟨i, hi⟩
      simpa using hrun
    · obtain ⟨hi, rfl⟩ := List.getElem?_eq_some_iff.mp hu
      rw [List.length_ofFn] at hi
      obtain ⟨s, -, hstage⟩ := hafter.unit (hended ⟨i, hi⟩)
      rw [List.getElem_ofFn]
      exact ⟨hdeeds ⟨i, hi⟩, hstage.of_ended.1⟩
    · refine hc₁.gathered_eq hr hbegun hawaited (List.ext_getElem? fun i => ?_)
      by_cases hi : i < units.length
      · rw [hended ⟨i, hi⟩]
        simp [hi]
      · have hle := Nat.not_lt.mp hi
        rw [List.getElem?_eq_none (by rw [hbefore.length_start]; exact hle),
          List.getElem?_eq_none (by simpa using hle)]

end Call

end Pool

end LedgerSearch
