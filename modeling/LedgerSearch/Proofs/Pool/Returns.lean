import Mathlib
import LedgerSearch.Proofs.Pool.TurnSchedule

/-
  What the calls of a pool return, whatever happens in which order: the results of their units in
  the order of the units, or the first error in that order (`schedule_accounts`).
-/

namespace LedgerSearch

open Program

/-- Whatever the answers, the program comes to a result: its arithmetic stays in range. -/
def Program.Returns {I : Interface} {α : Type} (p : Program I α) : Prop :=
  ∀ es o, ¬ p.Path es (.stop (.overflow o))

namespace Pool

variable {Body α σ : Type}

/-- What the act has the call return. -/
def Act.returned? : Act Body α → Option (Except Error (List α))
  | .returns r => some r
  | .unit _ _ | .joined _ => none

/-- An act that returns is the first to do so. -/
theorem Call.Step.result {c c' : Call Body α} {a : Act Body α} (h : c.Step a c') :
    c'.result.toList = c.result.toList ++ a.returned?.toList := by
  cases h with
  | begins | works | joined | cancelled => exact (List.append_nil _).symm
  | lost hr _ _ _ => rw [hr]; rfl
  | returns hr _ _ => rw [hr]; rfl

/-- A call returns once if at all. -/
theorem Call.Run.result {c c' : Call Body α} {log : List (Act Body α)} (h : c.Run log c') :
    c'.result.toList = c.result.toList ++ log.filterMap Act.returned? := by
  induction h with
  | refl => exact (List.append_nil _).symm
  | @step c c₁ c₂ a log hstep _ ih =>
    rw [ih, hstep.result, List.append_assoc, List.filterMap_cons]
    cases a.returned? <;> rfl

variable {wanted : Nat} {calls : List (List (Program (Site Body) α))} {f : Floor Body α}
  {log : List (Nat × Act Body α)} {k : Nat} {units : List (Program (Site Body) α)}

/-- What happened on the floor is to each call a run from its start. -/
theorem Schedule.call_start (h : Schedule (.start wanted calls) log f)
    (hk : calls[k]? = some units) :
    ∃ c, f.calls[k]? = some c ∧ (Call.start units).Run (callLog k log) c := by
  refine h.call ?_
  rw [Floor.start, List.getElem?_map, hk]
  rfl

/-- Where nothing can go on a call has returned once. -/
theorem Schedule.exists_returned (h : Schedule (.start wanted calls) log f)
    (hstuck : ∀ e f', ¬ f.Step e f') (hk : calls[k]? = some units) :
    ∃ r, (callLog k log).filterMap Act.returned? = [r] := by
  obtain ⟨c, hc, hrun⟩ := h.call_start hk
  obtain ⟨r, hr⟩ := Option.ne_none_iff_exists'.mp
    (h.returned_of_stuck hstuck (List.mem_of_getElem? hc))
  have hresult := hrun.result
  rw [hr] at hresult
  exact ⟨r, hresult.symm⟩

/-- Calls of one pool, in whatever order things happen. They come to an end, and then each has
    returned once; at no point are more units at work than there are workers; and a call whose units
    come to results has run each once to its end before it returns their values in the order of the
    units, or the error of the first that failed. Turns are one such order. -/
theorem schedule_accounts (wanted : Nat) (calls : List (List (Program (Site Body) α))) :
    (WellFounded fun f' f : Floor Body α => ∃ e, f.Step e f') ∧
    (∀ log f, Schedule (.start wanted calls) log f →
      f.running ≤ workersFor wanted ∧
      ∀ k units, calls[k]? = some units →
        ((∀ e f', ¬ f.Step e f') → ∃ r, (callLog k log).filterMap Act.returned? = [r]) ∧
        ∀ before r after, callLog k log = before ++ .returns r :: after →
          (∀ p ∈ units, p.Returns) →
          ∃ runs : List (Call.UnitRun Body α),
            List.Forall₂ (fun p u => p.Path u.trace (.ofResult u.result)) units runs ∧
            (∀ i u, runs[i]? = some u → deeds i before = u.deeds ∧ deeds i after = []) ∧
            ((∃ as, runs.map (·.result) = as.map .ok ∧ r = .ok as) ∨
              ∃ (i : Nat) (e : Error), (runs.map (·.result))[i]? = some (.error e) ∧
                (∀ j < i, ∃ a, (runs.map (·.result))[j]? = some (.ok a)) ∧ r = .error e)) ∧
    ∀ (units : List (Program (Site Body) α)) (h : Handler (Site Body) σ) (x : σ), ∃ log f,
      Schedule (.start wanted [units])
        (log ++ [(0, .returns (run (workersFor wanted) 0 h units x).1.result)]) f ∧
      f.running = (run (workersFor wanted) 0 h units x).1.givenUp := by
  refine ⟨Floor.wellFounded, fun log f hsched => ⟨hsched.running_le, fun k units hk =>
    ⟨fun hstuck => hsched.exists_returned hstuck hk, fun before r after hlog hreturns => ?_⟩⟩,
    fun units h x => exists_schedule_run wanted h units x⟩
  obtain ⟨c, -, hrun⟩ := hsched.call_start hk
  rw [hlog] at hrun
  rcases hrun.returned with ⟨runs, hpaths, hdeeds, rfl⟩ | ⟨-, i, p, es, o, hp, hpath, -⟩
  · refine ⟨runs, hpaths, hdeeds, ?_⟩
    rcases Call.collect_cases (runs.map (·.result)) with ⟨as, has, hr⟩ | ⟨i, e, hi, hfirst, hr⟩
    · exact .inl ⟨as, has, hr⟩
    · exact .inr ⟨i, e, hi, hfirst, hr⟩
  · exact absurd hpath (hreturns p (List.mem_of_getElem? hp) es o)

/-- Three units, of which two fail. -/
def twoFailing : List (Program (Site String) Nat) :=
  [.done 1, .stop (.error (.other "first")), .stop (.error (.other "second"))]

/-- What happens to them on two workers: the last one fails before the one in the middle. -/
def twoFailingLog : List (Act String Nat) :=
  [.unit 0 .begins, .unit 1 .begins, .unit 0 (.ends (.ok 1)), .unit 0 .leaves, .unit 2 .begins,
    .unit 2 (.ends (.error (.error (.other "second")))), .unit 2 .leaves,
    .unit 1 (.ends (.error (.error (.other "first")))), .unit 1 .leaves,
    .joined 2, .joined 0, .joined 1]

theorem exists_schedule_twoFailing :
    ∃ f, Schedule (.start 2 [twoFailing])
      (twoFailingLog.map (0, ·) ++ [(0, .returns (.error (.other "first")))]) f :=
  ⟨_, .step (.act rfl (.begins rfl rfl) (Nat.le_add_left _ _)) <|
    .step (.act rfl (.begins rfl rfl) (Nat.le_add_left _ _)) <|
    .step (.act rfl (.works rfl trivial (.ends rfl)) (Nat.zero_le _)) <|
    .step (.act rfl (.works rfl trivial (.leaves _)) (Nat.zero_le _)) <|
    .step (.act rfl (.begins rfl rfl) (Nat.le_add_left _ _)) <|
    .step (.act rfl (.works rfl trivial (.ends rfl)) (Nat.zero_le _)) <|
    .step (.act rfl (.works rfl trivial (.leaves _)) (Nat.zero_le _)) <|
    .step (.act rfl (.works rfl trivial (.ends rfl)) (Nat.zero_le _)) <|
    .step (.act rfl (.works rfl trivial (.leaves _)) (Nat.zero_le _)) <|
    .step (.act rfl (.joined (r := .error _) rfl rfl (by decide) rfl) (Nat.zero_le _)) <|
    .step (.act rfl (.joined (r := .ok _) rfl rfl (by decide) rfl) (Nat.zero_le _)) <|
    .step (.act rfl (.joined (r := .error _) rfl rfl (by decide) rfl) (Nat.zero_le _)) <|
    .step (.act rfl (.returns rfl rfl rfl) (Nat.zero_le _)) (.refl _)⟩

theorem schedule_accounts_twoFailing :
    ∃ runs : List (Call.UnitRun String Nat),
      List.Forall₂ (fun p u => p.Path u.trace (.ofResult u.result)) twoFailing runs ∧
      (∀ i u, runs[i]? = some u →
        deeds i twoFailingLog = u.deeds ∧ deeds i ([] : List (Act String Nat)) = []) ∧
      ∃ i : Nat, (runs.map (·.result))[i]? = some (.error (.other "first")) ∧
        ∀ j < i, ∃ a, (runs.map (·.result))[j]? = some (.ok a) := by
  obtain ⟨f, hsched⟩ := exists_schedule_twoFailing
  have hreturns : ∀ p ∈ twoFailing, p.Returns := by
    intro p hp es o hpath
    simp only [twoFailing, List.mem_cons, List.not_mem_nil, or_false] at hp
    rcases hp with rfl | rfl | rfl <;> cases hpath
  obtain ⟨runs, hpaths, hdeeds, ⟨as, -, has⟩ | ⟨i, e, hi, hfirst, he⟩⟩ :=
    (((schedule_accounts (σ := Unit) 2 [twoFailing]).2.1 _ f hsched).2 0 twoFailing rfl).2
      twoFailingLog _ [] rfl hreturns
  · exact nomatch has
  · obtain rfl := Except.error.inj he
    exact ⟨runs, hpaths, hdeeds, i, hi, hfirst⟩

end Pool

end LedgerSearch
