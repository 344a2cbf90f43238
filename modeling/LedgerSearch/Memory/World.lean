import LedgerSearch.Memory.History
import LedgerSearch.Memory.Index

/-
  Surroundings for programs, all in memory: a source, an index that can be made to fail, a clock and
  counters, and a record of what was asked of the index.
-/

namespace LedgerSearch.Memory

/-- A bulk request and whether it was taken. -/
structure Received where
  body : BulkBody
  taken : Bool

/-- The ledger of the first ledger document. -/
def Received.firstLedger? (r : Received) : Option UInt32 := (Index.ledgersOf r.body).head?

/-- A call that created or deleted an index. -/
inductive AdminCall where
  | create (name : String) (fields : Nat)
  | delete (name : String)

/-- A database and an index kept in memory, with the ways they are told to fail. -/
structure World where
  history : History
  index : Index
  /-- How many requests are still refused, by the first ledger of the request. -/
  refusals : UInt32 → Nat := fun _ => 0
  /-- Whether the index rejects every document. -/
  down : Bool := false
  /-- The errors that requests of some kinds fail with. -/
  broken : Site.Request BulkBody → Option Error := fun _ => none
  metrics : Metrics := .zero
  /-- Milliseconds that have passed. -/
  clock : Nat := 0
  received : List Received := []
  admin : List AdminCall := []

namespace World

/-- Refuses requests that begin with that ledger. -/
def refuse (w : World) (seq : UInt32) (times : Nat) : World :=
  { w with refusals := fun s => if s = seq then times else w.refusals s }

/-- A body that arrived is remembered, whether or not its documents were taken. -/
def record (w : World) (body : BulkBody) (taken : Bool) : World :=
  { w with received := w.received ++ [⟨body, taken⟩] }

/-- The reply to a request of which no document was taken. -/
def unavailable (body : BulkBody) : Search.BulkReply where
  errors := true
  items := body.length
  failed := body.length
  firstError := some "status 503: unavailable"

/-- The ledger at the front of a body that is refused for it. -/
def refusedLedger? (w : World) (body : BulkBody) : Option UInt32 :=
  (Index.ledgersOf body).head?.filter fun seq => 0 < w.refusals seq

/-- A refusal is used up by the request it refuses. -/
def bulk (w : World) (body : BulkBody) : Except Error Search.BulkReply × World :=
  match w.refusedLedger? body with
  | some seq =>
    (.error (.index (.transport "connection refused")),
      (w.refuse seq (w.refusals seq - 1)).record body false)
  | none =>
    if w.down then (.ok (unavailable body), w.record body false)
    else (.ok { items := body.length }, { w with index := w.index.store body }.record body true)

/-- The number of fields a mapping names. -/
def mappedFields (mapping : Json) : Nat :=
  (((mapping.at? ["mappings", "properties"]).bind Json.asObject?).getD []).length

/-- Calls that only ask leave the world as it is; creating and deleting are remembered. -/
def callIndex (w : World) : (c : IndexCall BulkBody) → Except Error c.Reply × World
  | .bulk body => w.bulk body
  | .bounds => (.ok w.index.bounds, w)
  | .seqsIn lo hi => (.ok (w.index.seqsIn lo hi), w)
  | .count n => (.ok (w.index.count n), w)
  | .buckets start stop interval => (.ok (w.index.buckets start stop interval), w)
  | .create n mapping =>
    let call := .create (n.qualified w.index.deployment) (mappedFields mapping)
    (.ok (), { w with admin := w.admin ++ [call] })
  | .delete n =>
    let call := .delete (n.qualified w.index.deployment)
    (.ok (), { w with admin := w.admin ++ [call] })

/-- How the world answers and what that changes. -/
def answer : Program.Handler (Site BulkBody) World
  | .history q, w =>
    match w.broken (.history q) with
    | some e => (.error e, w)
    | none => (.ok (w.history.answer q), w)
  | .index c, w =>
    match w.broken (.index c) with
    | some e => (.error e, w)
    | none => w.callIndex c
  | .wait ms, w => ((), { w with clock := w.clock + ms })
  | .increment c n, w => ((), { w with metrics := w.metrics.increment c n })

end World

end LedgerSearch.Memory
