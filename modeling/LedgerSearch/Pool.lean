import LedgerSearch.Program.Turn

/-
  Units of work on a bounded number of workers. The units begin in order as workers become free, and
  the results come back in the order of the units: all of them, or the first error.

  The units take turns: each goes on until it waits or is over, and when none has a turn left, the
  dispatcher begins as many units as there are free workers. Time passes only when nobody can go on.
  A unit whose arithmetic left its range gives no result. Once the last unit has begun, the dispatcher
  reports such a loss as soon as it knows of it, and gives up the units that are not over.
-/

namespace LedgerSearch

namespace Pool

/-- The number of workers of a pool that was asked for so many; there is at least one. -/
def workersFor (wanted : Nat) : Nat := max wanted 1

/-- Results in the order of the units, or the first error in that order. -/
def collect {α : Type} (results : List (Except Error α)) : Except Error (List α) :=
  results.mapM id

variable {Body α σ : Type}

/-- What has become of a unit. -/
inductive Job (Body α : Type) where
  | left (p : Program (Site Body) α)
  | ended (o : Outcome α)

namespace Job

/-- The task stopped on an overflow, so it hands back no result. -/
def isLost : Job Body α → Bool
  | .ended (.error (.overflow _)) => true
  | .ended (.error (.error _)) | .ended (.ok _) | .left _ => false

/-- The result of a unit that is over and not lost. -/
def result? : Job Body α → Option (Except Error α)
  | .ended (.ok a) => some (.ok a)
  | .ended (.error (.error e)) => some (.error e)
  | .ended (.error (.overflow _)) | .left _ => none

/-- The first job is the second after a turn or more. -/
inductive PartOf : Job Body α → Job Body α → Prop where
  | left {p q : Program (Site Body) α} : p.PartOf q → PartOf (.left p) (.left q)
  | ended (o : Outcome α) (p : Program (Site Body) α) : PartOf (.ended o) (.left p)

theorem acc_ended (o : Outcome α) : Acc PartOf (.ended o : Job Body α) :=
  ⟨_, fun _ h => nomatch h⟩

theorem acc_partOf : (j : Job Body α) → Acc PartOf j
  | .ended o => acc_ended o
  | .left p => by
    induction p.acc_partOf with
    | intro p _ ih =>
      refine ⟨_, fun j h => ?_⟩
      cases h with
      | left h => exact ih _ h
      | ended o => exact acc_ended o

end Job

/-- The same jobs, of which one has had a turn. -/
inductive Further : List (Job Body α) → List (Job Body α) → Prop where
  | here {j k : Job Body α} (js : List (Job Body α)) : j.PartOf k → Further (j :: js) (k :: js)
  | later (j : Job Body α) {js ks : List (Job Body α)} : Further js ks → Further (j :: js) (j :: ks)

theorem acc_further_cons {j : Job Body α} (hj : Acc Job.PartOf j) {js : List (Job Body α)}
    (hjs : Acc Further js) : Acc Further (j :: js) := by
  induction hj generalizing js with
  | intro j _ ihj =>
    induction hjs with
    | intro js hjs ihjs =>
      refine ⟨_, fun ks h => ?_⟩
      cases h with
      | here _ h => exact ihj _ h ⟨_, hjs⟩
      | later _ h => exact ihjs _ h

theorem acc_further : (js : List (Job Body α)) → Acc Further js
  | [] => ⟨_, fun _ h => nomatch h⟩
  | j :: js => acc_further_cons j.acc_partOf (acc_further js)

/-- Turns come to an end. -/
instance : WellFoundedRelation (List (Job Body α)) := ⟨Further, ⟨acc_further⟩⟩

theorem further_set {js : List (Job Body α)} {i : Nat} {j k : Job Body α} (hi : js[i]? = some k)
    (h : j.PartOf k) : Further (js.set i j) js := by
  induction js generalizing i with
  | nil => simp at hi
  | cons l js ih =>
    cases i with
    | zero =>
      obtain rfl : l = k := by simpa using hi
      exact .here js h
    | succ i => exact .later l (ih (by simpa using hi))

/-- How far the units of a call have got. Units go by their numbers. -/
structure State (Body α : Type) where
  jobs : List (Job Body α)
  /-- How many units have begun. -/
  begun : Nat := 0
  /-- The units that have a turn, in order. -/
  ready : List Nat := []
  /-- The units that wait, after the times they wait for, ascending. -/
  asleep : List (Nat × Nat) := []
  /-- Milliseconds since the call. -/
  now : Nat := 0

namespace State

/-- The units that have begun and are not over. -/
def running (s : State Body α) : Nat := s.ready.length + s.asleep.length

/-- Begins units while there are free workers. -/
def beginUnits (workers : Nat) (s : State Body α) : State Body α :=
  let n := min (workers - s.running) (s.jobs.length - s.begun)
  { s with begun := s.begun + n, ready := s.ready ++ List.range' s.begun n }

/-- Lets time pass up to the next waking. The units due then have a turn. -/
def wake (s : State Body α) : State Body α :=
  match s.asleep with
  | [] => s
  | (t, i) :: rest =>
    { s with now := t
             ready := i :: (rest.takeWhile (·.1 = t)).map (·.2)
             asleep := rest.dropWhile (·.1 = t) }

/-- What the dispatcher does when no unit has a turn left: units begin, or else time passes. -/
def dispatch (workers : Nat) (s : State Body α) : State Body α :=
  let s := s.beginUnits workers
  if s.ready.isEmpty then s.wake else s

/-- Whether the dispatcher knows of a lost unit and has none left to begin. -/
def isLost (workers : Nat) (s : State Body α) : Bool :=
  s.ready.isEmpty && (s.beginUnits workers).begun = s.jobs.length && s.jobs.any Job.isLost

/-- The state where the next unit takes its turn. -/
def next (workers : Nat) (s : State Body α) : State Body α :=
  if s.ready.isEmpty then s.dispatch workers else s

/-- Puts a time and a unit behind those that are not later. -/
def insertSleeper (t i : Nat) : List (Nat × Nat) → List (Nat × Nat)
  | [] => [(t, i)]
  | (u, j) :: rest => if u ≤ t then (u, j) :: insertSleeper t i rest else (t, i) :: (u, j) :: rest

/-- A unit after its turn. -/
def record (s : State Body α) (i : Nat) : Program.Turn Body α → State Body α
  | .ended o => { s with jobs := s.jobs.set i (.ended o) }
  | .waiting ms rest =>
    { s with jobs := s.jobs.set i (.left rest), asleep := insertSleeper (s.now + ms) i s.asleep }

theorem jobs_beginUnits (workers : Nat) (s : State Body α) : (s.beginUnits workers).jobs = s.jobs :=
  rfl

theorem jobs_wake (s : State Body α) : s.wake.jobs = s.jobs := by
  unfold wake; split <;> rfl

theorem jobs_next (workers : Nat) (s : State Body α) : (s.next workers).jobs = s.jobs := by
  simp only [next, dispatch]
  split
  · split
    · rw [jobs_wake, jobs_beginUnits]
    · rfl
  · rfl

theorem further_record {s : State Body α} {i : Nat} {p : Program (Site Body) α}
    (h : Program.Handler (Site Body) σ) (x : σ) (hi : s.jobs[i]? = some (.left p)) :
    Further (s.record i (p.turn h x).1).jobs s.jobs := by
  cases e : (p.turn h x).1 with
  | ended o => exact further_set hi (.ended o p)
  | waiting ms rest => exact further_set hi (.left (Program.partOf_of_turn h p x e))

/-- Lets time pass in the surroundings. -/
def pass (h : Program.Handler (Site Body) σ) (ms : Nat) (x : σ) : σ :=
  if ms = 0 then x else (h (.wait ms) x).2

/-- Turns until all units are over or a lost one is known. -/
def settle (workers : Nat) (h : Program.Handler (Site Body) σ) (s : State Body α) (x : σ) :
    State Body α × σ :=
  -- the call ends here: units that have begun are left where they are
  if s.isLost workers then (s.beginUnits workers, x)
  else
    let t := s.next workers
    match t.ready with
    | [] => (t, x)
    | i :: ready =>
      match _hj : t.jobs[i]? with
      | some (.left p) =>
        let turn := p.turn h (pass h (t.now - s.now) x)
        settle workers h ({ t with ready }.record i turn.1) turn.2
      | some (.ended _) | none => (t, x)
termination_by s.jobs
decreasing_by
  rw [← jobs_next workers s]
  exact further_record (s := { s.next workers with ready }) h _ _hj

/-- The results of all units, unless one is missing. -/
def verdict (s : State Body α) : Option (List (Except Error α)) := s.jobs.mapM Job.result?

end State

/-- What the pool reports of a task that stopped on an overflow. -/
def lostWorker : Error := .other "worker task failed"

/-- What a call of a pool leaves. -/
structure Report (α : Type) where
  result : Except Error (List α)
  /-- How many units were given up after they had begun. -/
  givenUp : Nat

/-- Works on the units. At the beginning `busy` workers still hold units that an earlier call gave
    up; they are free once the dispatcher has waited. -/
def run (workers busy : Nat) (h : Program.Handler (Site Body) σ)
    (units : List (Program (Site Body) α)) (x : σ) : Report α × σ :=
  if units.isEmpty then (⟨.ok [], busy⟩, x)
  else
    let start : State Body α := { jobs := units.map .left }
    let (s, x) := (start.beginUnits (workers - busy)).settle workers h x
    match s.verdict with
    | some results => (⟨collect results, 0⟩, x)
    | none => (⟨.error lostWorker, s.running⟩, x)

/-- How long units take together, and how many run at once. -/
structure Timing where
  elapsed : Nat
  peak : Nat

/-- Takes a finish time into an ascending list. -/
def insertTime (t : Nat) : List Nat → List Nat
  | [] => [t]
  | u :: us => if t ≤ u then t :: u :: us else u :: insertTime t us

/-- Units of these durations begun from `now` on, while units are running that finish at the times
    `running`, ascending. A unit without duration is over as soon as it is begun. -/
def timingFrom (workers now peak : Nat) (running : List Nat) : List Nat → Timing
  | [] => ⟨running.getLast?.getD now, peak⟩
  | d :: ds =>
    let now := if running.length < workers then now else running.head?.getD now
    let running := running.filter (now < ·)
    let peak := max peak (running.length + 1)
    let running := if d = 0 then running else insertTime (now + d) running
    timingFrom workers now peak running ds

/-- When each unit starts and ends if a free worker always takes the next one. -/
def timing (workers : Nat) (durations : List Nat) : Timing := timingFrom workers 0 0 [] durations

end Pool

end LedgerSearch
