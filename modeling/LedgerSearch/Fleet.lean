import LedgerSearch.Export
import LedgerSearch.Pool

/-
  Programs that have batches of ledgers worked on at once.
-/

namespace LedgerSearch

namespace Fleet

/-- What a program asks that has batches worked on at once. -/
inductive Request where
  | site (r : Site.Request BulkBody)
  | batches (ss : List Selection)

/-- A request to the world is answered by it; a call of the pool is answered with its batches or the
    first error. -/
abbrev Reply : Request → Type
  | .site r => Site.Reply r
  | .batches _ => Except Error (List BatchReport)

end Fleet

/-- The surroundings of a program that has batches worked on at once. -/
abbrev Fleet : Interface := ⟨Fleet.Request, Fleet.Reply⟩

namespace Fleet

/-- The programs that need no workers. -/
def ofSite {α : Type} (p : Program (Site BulkBody) α) : Program Fleet α :=
  p.lift Request.site fun _ reply => reply

/-- The surroundings, and the workers that still hold units given up earlier. -/
structure State (σ : Type) where
  site : σ
  busy : Nat := 0

/-- The workers still busy after a request; they become free when the program waits. -/
def State.busyAfter {σ : Type} (s : State σ) : Site.Request BulkBody → Nat
  | .wait ms => if ms = 0 then s.busy else 0
  | .history _ | .index _ | .increment _ _ => s.busy

/-- Batches on `workers` workers, in surroundings that answer as `h` does. -/
def handler {σ : Type} (workers : Nat) (e : Exporter) (h : Program.Handler (Site BulkBody) σ) :
    Program.Handler Fleet (State σ)
  | .site r, s =>
    let (reply, site) := h r s.site
    (reply, ⟨site, s.busyAfter r⟩)
  | .batches ss, s =>
    let (report, site) := Pool.run workers s.busy h (ss.map e.batch) s.site
    (report.result, ⟨site, report.givenUp⟩)

/-- Works on all batches. -/
def exportAll (ss : List Selection) : Program Fleet ExportReport :=
  .ask (.batches ss) fun (reply : Except Error (List BatchReport)) =>
    match reply with
    | .ok reports => .done (.ofBatches (ss.zip reports))
    | .error e => .stop (.error e)

/-- The ledgers `[start, start + count)` in batches of that size. -/
def exportRange (start count batch : UInt32) : Program Fleet ExportReport :=
  exportAll (rangeBatches start count batch)

end Fleet

end LedgerSearch
