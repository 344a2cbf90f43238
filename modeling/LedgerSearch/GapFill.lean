import LedgerSearch.Fleet

/-
  Gaps in the ledger index: found window by window and filled from the source. What the source does
  not have either is reported.
-/

namespace LedgerSearch

/-- What a gap fill found and did. -/
structure GapReport where
  /-- The sequences `[lo, hi)` that were looked at; none where the index was empty. -/
  range : Option (UInt32 × UInt32) := none
  missing : List UInt32 := []
  missingInSource : List UInt32 := []
  skipped : List Selection := []
  unindexable : List UInt32 := []
  stats : Stats := {}
  backfilled : Bool := false
deriving DecidableEq

/-- The report of one gap fill, in the order of its fields. -/
def GapReport.toJson (r : GapReport) : Json :=
  .object [("range", Json.seqPair? r.range),
    ("missing", .seqs r.missing), ("missing_in_source", .seqs r.missingInSource),
    ("skipped", .array (r.skipped.map (·.toJson))), ("unindexable", .seqs r.unindexable),
    ("stats", r.stats.toJson), ("backfilled", .bool r.backfilled)]

/-- How a history is looked through and repaired. -/
structure GapFiller where
  /-- How many sequences are looked at in one query; zero counts as one. -/
  window : UInt32 := 100
  /-- How many ledgers are filled in one batch; zero counts as one. -/
  batch : UInt32 := 50
  /-- Only report what is missing. -/
  dryRun : Bool := false

namespace GapFiller

/-- The numbers `lo ≤ n < hi`. -/
def seqsBetween (lo hi : Nat) : List UInt32 := (List.range' lo (hi - lo)).map UInt32.ofNat

/-- The sequences before `next`, from `next` on being open, that are skipped by the ascending
    sequences `held`; and what is open after them. -/
def skippedBy (next : Nat) : List UInt32 → List UInt32 × Nat
  | [] => ([], next)
  | seq :: rest =>
    let (more, after) := skippedBy (max next (seq.toNat + 1)) rest
    (seqsBetween next seq.toNat ++ more, after)

/-- What a window `[_, stop)` adds to the missing sequences, and what is open after it: where it
    holds nothing, all up to its end is missing; what follows the last held sequence stays open. -/
def missingIn (next stop : Nat) (held : List UInt32) : List UInt32 × Nat :=
  if held = [] then (seqsBetween next stop, stop) else skippedBy next held

variable {Body : Type}

/-- The missing sequences from `start` on, those from `next` on being open. -/
def scanFrom (window hi next start : Nat) : Program (Site Body) (List UInt32) :=
  if start < hi then
    let stop := min (start + max window 1) hi
    (Site.index (.seqsIn (UInt32.ofNat start) (UInt32.ofNat stop))).andThen fun held =>
      let (missing, next) := missingIn next stop held
      (scanFrom window hi next stop).andThen fun more => .done (missing ++ more)
  else .done []
termination_by hi - start
decreasing_by omega

/-- The sequences of `[lo, hi)` that the index does not hold, ascending. What follows the last held
    sequence of the last window is not reported. -/
def scan (g : GapFiller) (lo hi : UInt32) : Program (Site Body) (List UInt32) :=
  scanFrom g.window.toNat hi.toNat lo.toNat lo.toNat

/-- What to look at: the given range, with the bounds of the index for what is not given. -/
def scanRange (start count : Option UInt32) : Program (Site Body) (Option (UInt32 × UInt32)) :=
  match start, count with
  | some start, some count => pure (some (start, saturatingAdd start count))
  | _, _ => do
    match ← Site.index .bounds with
    | none => pure none
    | some (first, last) =>
      let lo := start.getD first
      let hi := match count with
        | some count => saturatingAdd lo count
        | none => saturatingAdd last 1
      pure (some (lo, hi))

/-- Exports the missing ledgers. -/
def backfill (g : GapFiller) (r : GapReport) : Program Fleet GapReport := do
  let out ← Fleet.exportAll (seqBatches g.batch r.missing)
  pure { r with
    missingInSource := r.missing.filter (!out.fetched.contains ·)
    skipped := out.skipped
    unindexable := out.unindexable
    stats := out.stats
    backfilled := true }

/-- Finds what is missing, and fills it unless this is a dry run. -/
def run (g : GapFiller) (start count : Option UInt32) : Program Fleet GapReport := do
  match ← Fleet.ofSite (scanRange start count) with
  | none => pure {}
  | some (lo, hi) =>
    let missing ← Fleet.ofSite (g.scan lo hi)
    Fleet.ofSite (Site.increment .missingLedgers missing.length)
    let report : GapReport := { range := some (lo, hi), missing }
    -- the counter has grown by now, also in a dry run
    if missing.isEmpty || g.dryRun then pure report else g.backfill report

end GapFiller

end LedgerSearch
