import Mathlib
import LedgerSearch.Fleet

/-
  Traces: the requests of a program with the answers they got, whatever answers them. Units on
  workers ask in any order, one request after the other.
-/

namespace LedgerSearch

/-- A request with its answer. -/
structure Event (I : Interface) where
  request : I.Request
  reply : I.Reply request

namespace Program

variable {I : Interface} {Body α β σ : Type}

/-- The first program goes on as the second once it has had the answers of the trace. -/
inductive Path : Program I α → List (Event I) → Program I α → Prop
  | here (p : Program I α) : Path p [] p
  | ask {r : I.Request} {next : I.Reply r → Program I α} (reply : I.Reply r)
      {es : List (Event I)} {q : Program I α} :
      Path (next reply) es q → Path (.ask r next) (⟨r, reply⟩ :: es) q

theorem Path.trans {p q r : Program I α} {es fs : List (Event I)} (h : p.Path es q)
    (h' : q.Path fs r) : p.Path (es ++ fs) r := by
  induction h with
  | here p => exact h'
  | ask reply _ ih => exact .ask reply (ih h')

theorem Path.andThen {p q : Program I α} {es : List (Event I)} (h : p.Path es q)
    (f : α → Program I β) : (p.andThen f).Path es (q.andThen f) := by
  induction h with
  | here p => exact .here _
  | ask reply _ ih => exact .ask reply ih

/-! ## Finished programs -/

theorem path_done {a b : α} {es : List (Event I)} :
    Path (.done a : Program I α) es (.done b) ↔ es = [] ∧ a = b := by
  constructor
  · intro h
    cases h with
    | here => exact ⟨rfl, rfl⟩
  · intro h
    obtain ⟨rfl, rfl⟩ := h
    exact .here _

theorem not_path_stop {f : Failure} {b : α} {es : List (Event I)} :
    ¬ Path (.stop f : Program I α) es (.done b) := nofun

theorem path_ask {r : I.Request} {next : I.Reply r → Program I α} {b : α} {es : List (Event I)} :
    Path (.ask r next) es (.done b) ↔
      ∃ reply rest, es = ⟨r, reply⟩ :: rest ∧ (next reply).Path rest (.done b) := by
  constructor
  · intro h
    cases h with
    | ask reply h => exact ⟨reply, _, rfl, h⟩
  · intro h
    obtain ⟨reply, rest, rfl, h⟩ := h
    exact .ask reply h

theorem path_andThen {p : Program I α} {f : α → Program I β} {b : β} {es : List (Event I)} :
    (p.andThen f).Path es (.done b) ↔
      ∃ es₁ es₂ a, es = es₁ ++ es₂ ∧ p.Path es₁ (.done a) ∧ (f a).Path es₂ (.done b) := by
  constructor
  · intro h
    induction p generalizing es with
    | done a => exact ⟨[], es, a, rfl, .here _, h⟩
    | stop e => exact (not_path_stop h).elim
    | ask r next ih =>
      obtain ⟨reply, rest, rfl, hrest⟩ := path_ask.mp h
      obtain ⟨es₁, es₂, a, rfl, h₁, h₂⟩ := ih reply hrest
      exact ⟨_, es₂, a, rfl, .ask reply h₁, h₂⟩
  · intro h
    obtain ⟨es₁, es₂, a, rfl, h₁, h₂⟩ := h
    exact (h₁.andThen f).trans h₂

theorem path_ofOutcome {o : Outcome α} {a : α} {es : List (Event I)} :
    (ofOutcome o : Program I α).Path es (.done a) ↔ es = [] ∧ o = .ok a := by
  cases o with
  | ok b =>
    rw [ofOutcome, path_done]
    constructor
    · intro h
      obtain ⟨rfl, rfl⟩ := h
      exact ⟨rfl, rfl⟩
    · intro h
      obtain ⟨rfl, h⟩ := h
      exact ⟨rfl, Except.ok.inj h⟩
  | error f =>
    constructor
    · exact fun h => (not_path_stop h).elim
    · intro h
      obtain ⟨-, h⟩ := h
      exact nomatch h

theorem ofResult_eq_ofOutcome (o : Except Error α) :
    (ofResult o : Program I α) = ofOutcome (o.mapError .error) := by
  cases o <;> rfl

theorem path_ofResult {o : Except Error α} {a : α} {es : List (Event I)} :
    (ofResult o : Program I α).Path es (.done a) ↔ es = [] ∧ o = .ok a := by
  rw [ofResult_eq_ofOutcome, path_ofOutcome]
  cases o <;> simp [Except.mapError]

end Program

/-! ## Single requests -/

namespace Site

open Program

variable {Body : Type}

theorem path_history {q : HistoryQuery} {a : q.Reply} {es : List (Event (Site Body))} :
    (Site.history q).Path es (.done a) ↔ es = [⟨.history q, .ok a⟩] := by
  rw [Site.history, path_ask]
  constructor
  · intro h
    obtain ⟨reply, rest, rfl, h⟩ := h
    obtain ⟨rfl, rfl⟩ := path_ofResult.mp h
    rfl
  · rintro rfl
    exact ⟨.ok a, [], rfl, path_ofResult.mpr ⟨rfl, rfl⟩⟩

theorem path_index {c : IndexCall Body} {a : c.Reply} {es : List (Event (Site Body))} :
    (Site.index c).Path es (.done a) ↔ es = [⟨.index c, .ok a⟩] := by
  rw [Site.index, path_ask]
  constructor
  · intro h
    obtain ⟨reply, rest, rfl, h⟩ := h
    obtain ⟨rfl, rfl⟩ := path_ofResult.mp h
    rfl
  · rintro rfl
    exact ⟨.ok a, [], rfl, path_ofResult.mpr ⟨rfl, rfl⟩⟩

theorem path_wait {ms : Nat} {u : Unit} {es : List (Event (Site Body))} :
    (Site.wait ms).Path es (.done u) ↔ es = [⟨.wait ms, ()⟩] := by
  rw [Site.wait, path_ask]
  constructor
  · intro h
    obtain ⟨reply, rest, rfl, h⟩ := h
    obtain ⟨rfl, -⟩ := path_done.mp h
    rfl
  · rintro rfl
    exact ⟨(), [], rfl, .here _⟩

theorem path_increment {c : Counter} {n : Nat} {u : Unit} {es : List (Event (Site Body))} :
    (Site.increment c n).Path es (.done u) ↔ es = [⟨.increment c n, ()⟩] := by
  rw [Site.increment, path_ask]
  constructor
  · intro h
    obtain ⟨reply, rest, rfl, h⟩ := h
    obtain ⟨rfl, -⟩ := path_done.mp h
    rfl
  · rintro rfl
    exact ⟨(), [], rfl, .here _⟩

end Site

/-! ## Units on workers -/

namespace Pool

open Program

variable {Body α : Type}

/-- Units go on together: whichever has something to ask may be the next to get an answer. -/
inductive Steps :
    List (Program (Site Body) α) → List (Event (Site Body)) → List (Program (Site Body) α) → Prop
  | refl (ps : List (Program (Site Body) α)) : Steps ps [] ps
  | step {ps qs : List (Program (Site Body) α)} {es : List (Event (Site Body))} {i : Nat}
      {r : Site.Request Body} {next : Site.Reply r → Program (Site Body) α}
      (reply : Site.Reply r) :
      ps[i]? = some (.ask r next) → Steps (ps.set i (next reply)) es qs →
      Steps ps (⟨r, reply⟩ :: es) qs

/-- One unit had an answer more than the others. -/
theorem paths_of_set {ps : List (Program (Site Body) α)} {i : Nat} {p p' : Program (Site Body) α}
    {ev : Event (Site Body)} (hi : ps[i]? = some p)
    (hp : ∀ {es q}, p'.Path es q → p.Path (ev :: es) q)
    {ts : List (List (Event (Site Body)) × Program (Site Body) α)}
    (h : List.Forall₂ (fun p t => p.Path t.1 t.2) (ps.set i p') ts) :
    ∃ us, us.map (·.2) = ts.map (·.2) ∧
      List.Forall₂ (fun p (t : _ × _) => p.Path t.1 t.2) ps us ∧
      (us.flatMap (·.1)).Perm (ev :: ts.flatMap (·.1)) := by
  induction ps generalizing i ts with
  | nil => simp at hi
  | cons p₀ rest ih =>
    cases i with
    | zero =>
      obtain rfl : p₀ = p := by simpa using hi
      rw [List.set_cons_zero] at h
      cases h with
      | cons ht hts => exact ⟨(ev :: _, _) :: _, rfl, .cons (hp ht) hts, .refl _⟩
    | succ i =>
      rw [List.set_cons_succ] at h
      cases h with
      | @cons _ t _ ts ht hts =>
        obtain ⟨us, hmap, hus, hperm⟩ := ih (by simpa using hi) hts
        refine ⟨t :: us, by simp [hmap], .cons ht hus, ?_⟩
        rw [List.flatMap_cons, List.flatMap_cons]
        exact (hperm.append_left t.1).trans List.perm_middle

/-- Each unit takes a path of its own, and the paths together make up the trace. -/
theorem Steps.paths {ps qs : List (Program (Site Body) α)} {es : List (Event (Site Body))}
    (h : Steps ps es qs) :
    ∃ ts : List (List (Event (Site Body)) × Program (Site Body) α), ts.map (·.2) = qs ∧
      List.Forall₂ (fun p t => p.Path t.1 t.2) ps ts ∧ (ts.flatMap (·.1)).Perm es := by
  induction h with
  | refl ps =>
    refine ⟨ps.map fun p => ([], p), by simp [Function.comp_def], ?_, by simp⟩
    exact List.forall₂_map_right_iff.mpr (List.forall₂_same.mpr fun p _ => .here p)
  | step reply hi _ ih =>
    obtain ⟨ts, rfl, hts, hperm⟩ := ih
    obtain ⟨us, hmap, hus, hp⟩ := paths_of_set hi (fun hq => Path.ask (I := Site Body) reply hq) hts
    exact ⟨us, hmap, hus, hp.trans (hperm.cons _)⟩

/-- The result of a unit that is over and not lost. -/
def result? : Program (Site Body) α → Option (Except Error α)
  | .done a => some (.ok a)
  | .stop (.error e) => some (.error e)
  | .stop (.overflow _) | .ask _ _ => none

/-- What a call of the pool may come to: the results of all units, or a lost one, whereupon the
    units not over are given up. -/
def Finishes (units : List (Program (Site Body) α)) (es : List (Event (Site Body)))
    (result : Except Error (List α)) : Prop :=
  ∃ ends, Steps units es ends ∧
    ((∃ results, ends.mapM result? = some results ∧ result = collect results) ∨
      result = .error lostWorker)

theorem collect_cons (r : Except Error α) (rs : List (Except Error α)) :
    collect (r :: rs) = r.bind fun a => (collect rs).bind fun as => .ok (a :: as) := by
  rw [collect, List.mapM_cons]
  rfl

theorem collect_cons_eq_ok {r : Except Error α} {rs : List (Except Error α)} {as : List α} :
    collect (r :: rs) = .ok as ↔ ∃ a bs, r = .ok a ∧ collect rs = .ok bs ∧ a :: bs = as := by
  rw [collect_cons]
  cases r with
  | error e => simp [Except.bind]
  | ok a => cases collect rs <;> simp [Except.bind]

theorem eq_map_ok_of_collect {rs : List (Except Error α)} {as : List α}
    (h : collect rs = .ok as) : rs = as.map .ok := by
  induction rs generalizing as with
  | nil =>
    obtain rfl := Except.ok.inj h
    rfl
  | cons r rs ih =>
    obtain ⟨a, bs, rfl, hbs, rfl⟩ := collect_cons_eq_ok.mp h
    rw [ih hbs, List.map_cons]

theorem eq_done_of_result? {p : Program (Site Body) α} {a : α} (h : result? p = some (.ok a)) :
    p = .done a := by
  cases p with
  | done b =>
    rw [result?, Option.some.injEq, Except.ok.injEq] at h
    rw [h]
  | stop f => cases f <;> simp [result?] at h
  | ask r next => exact nomatch h

/-- Where all units have results, each has taken a path to its own. -/
theorem paths_of_results {units : List (Program (Site Body) α)}
    {ts : List (List (Event (Site Body)) × Program (Site Body) α)} {as : List α}
    (h : List.Forall₂ (fun p t => p.Path t.1 t.2) units ts)
    (hr : (ts.map (·.2)).mapM result? = some (as.map .ok)) :
    ∃ us : List (List (Event (Site Body)) × α), us.map (·.2) = as ∧
      List.Forall₂ (fun p t => p.Path t.1 (.done t.2)) units us ∧
      us.flatMap (·.1) = ts.flatMap (·.1) := by
  induction h generalizing as with
  | nil =>
    have : as = [] := by simpa using hr
    exact ⟨[], this.symm, .nil, rfl⟩
  | @cons p t units ts hp _ ih =>
    rw [List.map_cons, List.mapM_cons] at hr
    obtain ⟨r, hres, hr⟩ := Option.bind_eq_some_iff.mp hr
    obtain ⟨rs, hrs, hr⟩ := Option.bind_eq_some_iff.mp hr
    obtain ⟨a, bs, rfl, rfl, rfl⟩ := List.map_eq_cons_iff.mp (Option.some.inj hr).symm
    obtain ⟨us, hmap, hus, hflat⟩ := ih hrs
    rw [eq_done_of_result? hres] at hp
    refine ⟨(t.1, a) :: us, by rw [List.map_cons, hmap], .cons hp hus, ?_⟩
    rw [List.flatMap_cons, List.flatMap_cons, hflat]

/-- Where the call returns results, each unit has taken a path to its own. -/
theorem Finishes.paths {units : List (Program (Site Body) α)} {es : List (Event (Site Body))}
    {as : List α} (h : Finishes units es (.ok as)) :
    ∃ ts : List (List (Event (Site Body)) × α), ts.map (·.2) = as ∧
      List.Forall₂ (fun p t => p.Path t.1 (.done t.2)) units ts ∧
      (ts.flatMap (·.1)).Perm es := by
  obtain ⟨ends, hsteps, ⟨results, hres, hcol⟩ | hlost⟩ := h
  · obtain ⟨ts, rfl, hts, hperm⟩ := hsteps.paths
    rw [eq_map_ok_of_collect hcol.symm] at hres
    obtain ⟨us, hmap, hus, hflat⟩ := paths_of_results hts hres
    exact ⟨us, hmap, hus, hflat ▸ hperm⟩
  · exact nomatch hlost

end Pool

/-! ## Programs with workers -/

namespace Fleet

open Program

/-- The trace with the requests of the workers in the place of their calls. -/
inductive Expands (e : Exporter) : List (Event Fleet) → List (Event (Site BulkBody)) → Prop
  | nil : Expands e [] []
  | site {r : Site.Request BulkBody} (reply : Site.Reply r) {fs : List (Event Fleet)}
      {es : List (Event (Site BulkBody))} :
      Expands e fs es → Expands e (⟨.site r, reply⟩ :: fs) (⟨r, reply⟩ :: es)
  | batches {ss : List Selection} {result : Except Error (List BatchReport)}
      {fs : List (Event Fleet)} {es₁ es₂ : List (Event (Site BulkBody))} :
      Pool.Finishes (ss.map e.batch) es₁ result → Expands e fs es₂ →
      Expands e (⟨.batches ss, result⟩ :: fs) (es₁ ++ es₂)

/-- The program goes on as the second after the trace. -/
def Path {α : Type} (e : Exporter) (p : Program Fleet α) (es : List (Event (Site BulkBody)))
    (q : Program Fleet α) : Prop :=
  ∃ fs, p.Path fs q ∧ Expands e fs es

theorem expands_append {e : Exporter} {fs₁ fs₂ : List (Event Fleet)}
    {es : List (Event (Site BulkBody))} :
    Expands e (fs₁ ++ fs₂) es ↔
      ∃ es₁ es₂, es = es₁ ++ es₂ ∧ Expands e fs₁ es₁ ∧ Expands e fs₂ es₂ := by
  constructor
  · intro h
    induction fs₁ generalizing es with
    | nil => exact ⟨[], es, rfl, .nil, h⟩
    | cons f fs₁ ih =>
      cases h with
      | site reply h =>
        obtain ⟨es₁, es₂, rfl, h₁, h₂⟩ := ih h
        exact ⟨_ :: es₁, es₂, rfl, .site reply h₁, h₂⟩
      | batches hf h =>
        obtain ⟨es₁, es₂, rfl, h₁, h₂⟩ := ih h
        exact ⟨_ ++ es₁, es₂, (List.append_assoc _ _ _).symm, .batches hf h₁, h₂⟩
  · intro h
    obtain ⟨es₁, es₂, rfl, h₁, h₂⟩ := h
    induction h₁ with
    | nil => exact h₂
    | site reply _ ih => exact .site reply ih
    | batches hf _ ih =>
      rw [List.append_assoc]
      exact .batches hf ih

theorem path_andThen {α β : Type} {e : Exporter} {p : Program Fleet α} {f : α → Program Fleet β}
    {b : β} {es : List (Event (Site BulkBody))} :
    Path e (p.andThen f) es (.done b) ↔
      ∃ es₁ es₂ a, es = es₁ ++ es₂ ∧ Path e p es₁ (.done a) ∧ Path e (f a) es₂ (.done b) := by
  constructor
  · intro h
    obtain ⟨fs, h, hx⟩ := h
    obtain ⟨fs₁, fs₂, a, rfl, h₁, h₂⟩ := Program.path_andThen.mp h
    obtain ⟨es₁, es₂, rfl, hx₁, hx₂⟩ := expands_append.mp hx
    exact ⟨es₁, es₂, a, rfl, ⟨fs₁, h₁, hx₁⟩, fs₂, h₂, hx₂⟩
  · intro h
    obtain ⟨es₁, es₂, a, rfl, ⟨fs₁, h₁, hx₁⟩, fs₂, h₂, hx₂⟩ := h
    exact ⟨fs₁ ++ fs₂, Program.path_andThen.mpr ⟨fs₁, fs₂, a, rfl, h₁, h₂⟩,
      expands_append.mpr ⟨es₁, es₂, rfl, hx₁, hx₂⟩⟩

theorem path_done {α : Type} {e : Exporter} {a b : α} {es : List (Event (Site BulkBody))} :
    Path e (.done a) es (.done b) ↔ es = [] ∧ a = b := by
  constructor
  · intro h
    obtain ⟨fs, h, hx⟩ := h
    obtain ⟨rfl, rfl⟩ := Program.path_done.mp h
    cases hx
    exact ⟨rfl, rfl⟩
  · intro h
    obtain ⟨rfl, rfl⟩ := h
    exact ⟨[], .here _, .nil⟩

/-- A program that needs no workers leaves its own trace. -/
theorem path_ofSite {α : Type} {e : Exporter} {p : Program (Site BulkBody) α} {a : α}
    {es : List (Event (Site BulkBody))} :
    Path e (ofSite p) es (.done a) ↔ p.Path es (.done a) := by
  induction p generalizing es with
  | done b => exact path_done.trans Program.path_done.symm
  | stop f =>
    constructor
    · intro h
      obtain ⟨fs, h, -⟩ := h
      exact (not_path_stop h).elim
    · exact fun h => (not_path_stop h).elim
  | ask r next ih =>
    constructor
    · intro h
      obtain ⟨fs, h, hx⟩ := h
      obtain ⟨reply, rest, rfl, hrest⟩ := path_ask.mp h
      cases hx with
      | site _ hx => exact path_ask.mpr ⟨reply, _, rfl, (ih reply).mp ⟨rest, hrest, hx⟩⟩
    · intro h
      obtain ⟨reply, rest, rfl, hrest⟩ := path_ask.mp h
      obtain ⟨fs, hp, hx⟩ := (ih reply).mpr hrest
      exact ⟨⟨.site r, reply⟩ :: fs, path_ask.mpr ⟨reply, fs, rfl, hp⟩, .site reply hx⟩

theorem path_exportAll {e : Exporter} {ss : List Selection} {out : ExportReport}
    {es : List (Event (Site BulkBody))} (h : Path e (exportAll ss) es (.done out)) :
    ∃ reports, Pool.Finishes (ss.map e.batch) es (.ok reports) ∧
      out = .ofBatches (ss.zip reports) := by
  obtain ⟨fs, hp, hx⟩ := h
  obtain ⟨reply, rest, rfl, hrest⟩ := path_ask.mp hp
  cases reply with
  | error e => exact (not_path_stop hrest).elim
  | ok reports =>
    obtain ⟨rfl, rfl⟩ := Program.path_done.mp hrest
    cases hx with
    | batches hf hx =>
      cases hx
      exact ⟨reports, by rwa [List.append_nil], rfl⟩

end Fleet

end LedgerSearch
