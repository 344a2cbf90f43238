import LedgerSearch.Export

/-
  Following the source ledger by ledger. A ledger that could not be delivered is tried again, so
  that none is left behind; one that can never be indexed is passed over.
-/

namespace LedgerSearch

/-- What came of one step. -/
inductive TailStep where
  /-- The source has no ledger after the last one. -/
  | caughtUp
  | written (seq : UInt32) (documents : Nat)
  | failed (seq : UInt32)
  | unindexable (seq : UInt32)
deriving DecidableEq

namespace TailStep

/-- The ledger to go on after, given the one before the step. -/
def cursor (after : UInt32) : TailStep → UInt32
  | .written seq _ | .unindexable seq => seq
  | .caughtUp | .failed _ => after

/-- Whether the next step waits. -/
def mustWait : TailStep → Bool
  | .written _ _ | .unindexable _ => false
  | .caughtUp | .failed _ => true

/-- A step is told by its name, with the ledger it was about. -/
def toJson : TailStep → Json
  | .caughtUp => .object [("step", .string "caught_up")]
  | .written seq documents =>
    .object [("step", .string "written"), ("seq", .uint32 seq), ("documents", .nat documents)]
  | .failed seq => .object [("step", .string "failed"), ("seq", .uint32 seq)]
  | .unindexable seq => .object [("step", .string "unindexable"), ("seq", .uint32 seq)]

end TailStep

/-- How the newest ledgers are followed. -/
structure Tail where
  exporter : Exporter
  /-- The wait before the source is asked again, in milliseconds. -/
  interval : Nat

namespace Tail

/-- The ledger to start after: the one given, else the last one indexed, else none. -/
def resumeAfter {Body : Type} (after : Option UInt32) : Program (Site Body) UInt32 :=
  match after with
  | some seq => pure seq
  | none => do
    match ← Site.index .bounds with
    | some (_, last) => pure last
    | none => pure 0

/-- Indexes the first ledger after `after`. -/
def step (e : Exporter) (after : UInt32) : Program (Site BulkBody) TailStep := do
  match ← Site.history (.nextLedgerAfter after) with
  | none => pure .caughtUp
  | some ledger =>
    let out ← Exporter.serialize [ledger]
    if out.unindexable.contains ledger.seq then pure (.unindexable ledger.seq)
    else do
      match ← e.deliver out with
      | .written _ => pure (.written ledger.seq out.stats.documents)
      | .exhausted _ _ => pure (.failed ledger.seq)

/-- So many steps, with a wait before the next one where a step did not get further: the last ledger
    done. -/
def steps (t : Tail) (after : UInt32) : Nat → Program (Site BulkBody) UInt32
  | 0 => pure after
  | n + 1 => do
    let s ← step t.exporter after
    if s.mustWait && n != 0 then Site.wait t.interval
    steps t (s.cursor after) n

/-- Follows the source for so many steps. -/
def run (t : Tail) (after : Option UInt32) (n : Nat) : Program (Site BulkBody) UInt32 := do
  let start ← resumeAfter after
  t.steps start n

/-- So many turns of a tail with the step `p` under way, and then it is stopped: the last ledger
    done. A turn takes one answer, or takes up what came of the step and begins the next one, after
    a wait where the step did not get further. A step under way when the tail is stopped is given
    up. -/
def turns (t : Tail) :
    UInt32 → Program (Site BulkBody) TailStep → Nat → Program (Site BulkBody) UInt32
  | cursor, _, 0 => .done cursor
  | _, .stop f, _ + 1 => .stop f
  | cursor, .ask r next, n + 1 => .ask r fun reply => turns t cursor (next reply) n
  | cursor, .done s, n + 1 =>
    if s.mustWait then
      (Site.wait t.interval).andThen fun _ =>
        turns t (s.cursor cursor) (step t.exporter (s.cursor cursor)) n
    else turns t (s.cursor cursor) (step t.exporter (s.cursor cursor)) n

/-- Follows the source until it is stopped, which is after so many turns. -/
def follow (t : Tail) (after : Option UInt32) (n : Nat) : Program (Site BulkBody) UInt32 := do
  let start ← resumeAfter after
  t.turns start (step t.exporter start) n

end Tail

end LedgerSearch
