import Mathlib
import LedgerSearch.Proofs.Program.Trace

/-
  Runs leave traces: whatever a program comes to under one handler, its workers taking turns as the
  pool has them, it comes to by a trace that the handler has answered.
-/

namespace LedgerSearch

open Program

variable {Body α σ : Type}

/-- The answers of the trace are some that the handler gives in states of `inv`. -/
def Answered {I : Interface} (h : Handler I σ) (inv : σ → Prop) (es : List (Event I)) : Prop :=
  ∀ ev ∈ es, ∃ x, inv x ∧ (h ev.request x).1 = ev.reply

theorem answered_nil {I : Interface} {h : Handler I σ} {inv : σ → Prop} :
    Answered h inv ([] : List (Event I)) := fun _ hev => nomatch hev

theorem Answered.append {I : Interface} {h : Handler I σ} {inv : σ → Prop} {es fs : List (Event I)}
    (he : Answered h inv es) (hf : Answered h inv fs) : Answered h inv (es ++ fs) := by
  intro ev hev
  rcases List.mem_append.mp hev with hev | hev
  · exact he ev hev
  · exact hf ev hev

theorem Answered.cons {I : Interface} {h : Handler I σ} {inv : σ → Prop} {es : List (Event I)}
    {r : I.Request} {x : σ} (hx : inv x) (he : Answered h inv es) :
    Answered h inv (⟨r, (h r x).1⟩ :: es) := by
  intro ev hev
  rcases List.mem_cons.mp hev with rfl | hev
  · exact ⟨x, hx, rfl⟩
  · exact he ev hev

/-! ## Turns -/

/-- What a turn has left of a program. -/
def Program.Turn.rest : Program.Turn Body α → Program (Site Body) α
  | .ended o => .ofOutcome o
  | .waiting _ rest => rest

section

variable {h : Handler (Site Body) σ} {inv : σ → Prop} (hinv : ∀ r x, inv x → inv (h r x).2)

include hinv

theorem path_turn (p : Program (Site Body) α) {x : σ} (hx : inv x) :
    ∃ es, p.Path es (p.turn h x).1.rest ∧ Answered h inv es ∧ inv (p.turn h x).2 := by
  induction p generalizing x with
  | done a => exact ⟨[], .here _, answered_nil, hx⟩
  | stop f => exact ⟨[], .here _, answered_nil, hx⟩
  | ask r next ih =>
    cases r with
    | wait ms =>
      have hwait : ∀ {es}, Answered h inv es → Answered h inv (⟨.wait ms, ()⟩ :: es) :=
        fun he => Answered.cons (r := Site.Request.wait ms) hx he
      by_cases hms : ms = 0
      · obtain ⟨es, hp, he, hx'⟩ := ih () hx
        rw [turn, if_pos hms]
        exact ⟨_, Path.ask (I := Site Body) () hp, hwait he, hx'⟩
      · rw [turn, if_neg hms]
        exact ⟨_, Path.ask (I := Site Body) () (.here _), hwait answered_nil, hx⟩
    | history q =>
      obtain ⟨es, hp, he, hx'⟩ := ih _ (hinv (.history q) x hx)
      exact ⟨_, .ask _ hp, he.cons hx, hx'⟩
    | index c =>
      obtain ⟨es, hp, he, hx'⟩ := ih _ (hinv (.index c) x hx)
      exact ⟨_, .ask _ hp, he.cons hx, hx'⟩
    | increment c n =>
      obtain ⟨es, hp, he, hx'⟩ := ih _ (hinv (.increment c n) x hx)
      exact ⟨_, .ask _ hp, he.cons hx, hx'⟩

/-! ## Pools -/

omit hinv

namespace Pool

theorem Steps.trans {ps qs rs : List (Program (Site Body) α)} {es fs : List (Event (Site Body))}
    (h₁ : Steps ps es qs) (h₂ : Steps qs fs rs) : Steps ps (es ++ fs) rs := by
  induction h₁ with
  | refl ps => exact h₂
  | step reply hi _ ih => exact .step reply hi (ih h₂)

/-- One unit goes on alone. -/
theorem steps_of_path {p q : Program (Site Body) α} {es : List (Event (Site Body))}
    (h : p.Path es q) {ps : List (Program (Site Body) α)} {i : Nat} (hi : ps[i]? = some p) :
    Steps ps es (ps.set i q) := by
  induction h generalizing ps with
  | here p =>
    have hset : ps.set i p = ps := by
      obtain ⟨hlt, rfl⟩ := List.getElem?_eq_some_iff.mp hi
      exact List.set_getElem_self hlt
    rw [hset]
    exact .refl ps
  | @ask r next reply es q _ ih =>
    have hlt := (List.getElem?_eq_some_iff.mp hi).1
    have hnext : (ps.set i (next reply))[i]? = some (next reply) := List.getElem?_set_self hlt
    have hsteps := ih hnext
    rw [List.set_set] at hsteps
    exact .step reply hi hsteps

/-- What is left of a unit. -/
def Job.program : Job Body α → Program (Site Body) α
  | .left p => p
  | .ended o => .ofOutcome o

theorem jobs_record (s : State Body α) (i : Nat) (t : Program.Turn Body α) :
    (s.record i t).jobs.map Job.program = (s.jobs.map Job.program).set i t.rest := by
  cases t <;> exact List.map_set

theorem result?_program {j : Job Body α} {r : Except Error α} (h : j.result? = some r) :
    result? j.program = some r := by
  match j, h with
  | .ended (.ok a), h => exact h
  | .ended (.error (.error e)), h => exact h

theorem mapM_result? {js : List (Job Body α)} {rs : List (Except Error α)}
    (h : js.mapM Job.result? = some rs) : (js.map Job.program).mapM result? = some rs := by
  induction js generalizing rs with
  | nil => exact h
  | cons j js ih =>
    rw [List.mapM_cons] at h
    obtain ⟨r, hr, h⟩ := Option.bind_eq_some_iff.mp h
    obtain ⟨rs', hrs, h⟩ := Option.bind_eq_some_iff.mp h
    rw [List.map_cons, List.mapM_cons, result?_program hr, ih hrs]
    exact h

include hinv

theorem steps_settle (workers : Nat) (s : State Body α) {x : σ} (hx : inv x) :
    ∃ es, Steps (s.jobs.map Job.program) es ((s.settle workers h x).1.jobs.map Job.program) ∧
      Answered h inv es ∧ inv (s.settle workers h x).2 := by
  fun_induction State.settle workers h s x with
  | case1 s x hlost => exact ⟨[], .refl _, answered_nil, hx⟩
  | case2 s x hlost t hready =>
    rw [← State.jobs_next workers s]
    exact ⟨[], .refl _, answered_nil, hx⟩
  | case3 s x hlost t i ready hready p hj turn ih =>
    have hpass : inv (State.pass h (t.now - s.now) x) := by
      unfold State.pass
      split
      · exact hx
      · exact hinv _ _ hx
    obtain ⟨es₁, hp, he₁, hx₁⟩ := path_turn hinv p hpass
    obtain ⟨es₂, hsteps, he₂, hx₂⟩ := ih hx₁
    rw [jobs_record] at hsteps
    have hi : (t.jobs.map Job.program)[i]? = some p := by
      rw [List.getElem?_map, hj]
      rfl
    rw [← State.jobs_next workers s]
    exact ⟨es₁ ++ es₂, (steps_of_path hp hi).trans hsteps, he₁.append he₂, hx₂⟩
  | case4 s x _ t =>
    rw [← State.jobs_next workers s]
    exact ⟨[], .refl _, answered_nil, hx⟩
  | case5 s x _ t =>
    rw [← State.jobs_next workers s]
    exact ⟨[], .refl _, answered_nil, hx⟩

theorem finishes_run (workers busy : Nat) (units : List (Program (Site Body) α)) {x : σ}
    (hx : inv x) :
    ∃ es, Finishes units es (run workers busy h units x).1.result ∧ Answered h inv es ∧
      inv (run workers busy h units x).2 := by
  unfold run
  by_cases hunits : units.isEmpty = true
  · rw [if_pos hunits, List.isEmpty_iff.mp hunits]
    exact ⟨[], ⟨[], .refl _, .inl ⟨[], rfl, rfl⟩⟩, answered_nil, hx⟩
  · rw [if_neg hunits]
    dsimp only
    obtain ⟨es, hsteps, he, hx'⟩ := steps_settle hinv workers
      (({ jobs := units.map .left } : State Body α).beginUnits (workers - busy)) hx
    have hstart : ((({ jobs := units.map .left } : State Body α).beginUnits
        (workers - busy)).jobs.map Job.program) = units := by
      rw [State.jobs_beginUnits, List.map_map]
      exact List.map_id units
    rw [hstart] at hsteps
    refine ⟨es, ⟨_, hsteps, ?_⟩, he, ?_⟩
    · split
      · next results hv => exact .inl ⟨results, mapM_result? hv, rfl⟩
      · exact .inr rfl
    · split <;> exact hx'

end Pool

/-! ## Programs with workers -/

/-- What a program comes to with its workers taking turns, it comes to by a trace. -/
theorem Fleet.path_run {h : Handler (Site BulkBody) σ} {inv : σ → Prop}
    (hinv : ∀ r x, inv x → inv (h r x).2) (workers : Nat) (e : Exporter) (p : Program Fleet α)
    {s : Fleet.State σ} (hs : inv s.site) :
    ∃ es, Fleet.Path e p es (.ofOutcome (p.run (Fleet.handler workers e h) s).1) ∧
      Answered h inv es := by
  induction p generalizing s with
  | done a => exact ⟨[], ⟨[], .here _, .nil⟩, answered_nil⟩
  | stop f => exact ⟨[], ⟨[], .here _, .nil⟩, answered_nil⟩
  | ask r next ih =>
    cases r with
    | site r =>
      obtain ⟨es, ⟨fs, hp, hx⟩, he⟩ := ih (h r s.site).1
        (s := ⟨(h r s.site).2, s.busyAfter r⟩) (hinv r _ hs)
      exact ⟨_, ⟨⟨.site r, _⟩ :: fs, .ask (I := Fleet) _ hp, .site _ hx⟩, he.cons hs⟩
    | batches ss =>
      obtain ⟨es₁, hf, he₁, hs₁⟩ := Pool.finishes_run hinv workers s.busy (ss.map e.batch) hs
      obtain ⟨es₂, ⟨fs, hp, hx⟩, he₂⟩ := ih _
        (s := ⟨(Pool.run workers s.busy h (ss.map e.batch) s.site).2,
          (Pool.run workers s.busy h (ss.map e.batch) s.site).1.givenUp⟩) hs₁
      exact ⟨es₁ ++ es₂, ⟨⟨.batches ss, _⟩ :: fs, .ask (I := Fleet) _ hp, .batches hf hx⟩,
        he₁.append he₂⟩

end

/-- A call with one batch leaves the trace of that batch. -/
theorem Fleet.exists_path_exportAll {e : Exporter} {s : Selection}
    {es : List (Event (Site BulkBody))} {report : BatchReport}
    (h : (e.batch s).Path es (.done report)) :
    Fleet.Path e (Fleet.exportAll [s]) es (.done (.ofBatches [(s, report)])) := by
  have hunit : [e.batch s][0]? = some (e.batch s) := rfl
  have hf : Pool.Finishes ([s].map e.batch) es (.ok [report]) :=
    ⟨_, Pool.steps_of_path h hunit, .inl ⟨[.ok report], rfl, rfl⟩⟩
  refine ⟨[⟨.batches [s], .ok [report]⟩], path_ask.mpr ⟨_, [], rfl, .here _⟩, ?_⟩
  rw [← List.append_nil es]
  exact .batches hf .nil

end LedgerSearch
