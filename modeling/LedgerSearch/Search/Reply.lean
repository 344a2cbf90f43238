import LedgerSearch.Failure
import LedgerSearch.Json.Basic
import LedgerSearch.Sequences

/-
  What the search engine answers, read from JSON whose objects have their fields sorted by name.
-/

namespace LedgerSearch.Search

/-- A reply that is not of the expected form. -/
def unexpected (what : String) (j : Json) : Error := .index (.response s!"{what}: {j.text}")

/-- What became of the documents of one bulk request. -/
structure BulkReply where
  errors : Bool := false
  items : Nat := 0
  failed : Nat := 0
  firstError : Option String := none
deriving DecidableEq

namespace BulkReply

/-- Whether every document was taken. -/
def isSuccess (r : BulkReply) : Bool := !r.errors && r.failed = 0

/-- What an item says about its document, under the name of the action. -/
def action? (item : Json) : Option Json :=
  match item.asObject? with
  | some ((_, result) :: _) => some result
  | _ => none

/-- The status of an item, 0 where it has none. -/
def status (result : Json) : Nat := ((result.get? "status").bind Json.asNat?).getD 0

/-- The status of an item tells of a failure. -/
def isRejected (result : Json) : Bool :=
  let s := status result
  s < 200 || 300 ≤ s

/-- Why the document of an item was rejected: the reason given, else all of the error. -/
def reason (result : Json) : String :=
  let given := (result.at? ["error", "reason"]).bind Json.asString?
  let whole := match result.get? "error" with
    | some e => e.text
    | none => ""
  s!"status {status result}: {given.getD whole}"

/-- Items that say nothing are counted among the items, but not among the failed ones. -/
def ofJson (j : Json) : Except Error BulkReply := do
  let errors ← match (j.get? "errors").bind Json.asBool? with
    | some b => pure b
    | none => throw (unexpected "bulk response without errors flag" j)
  let items := ((j.get? "items").bind Json.asArray?).getD []
  let rejected := (items.filterMap action?).filter isRejected
  pure { errors, items := items.length, failed := rejected.length,
         firstError := rejected.head?.map reason }

end BulkReply

/-- The value of an aggregation, cut to a 32-bit number. -/
def aggregate? (j : Json) (name : String) : Option UInt32 := do
  let x ← (← j.at? ["aggregations", name, "value"]).asFloat?
  some x.toUInt32Saturating

/-- The lowest and highest ledger, if there is any. -/
def boundsOf (j : Json) : Option (UInt32 × UInt32) := do
  let lo ← aggregate? j "min_seq"
  let hi ← aggregate? j "max_seq"
  some (lo, hi)

/-- The sequence that a hit carries. -/
def seqOfHit (hit : Json) : Except Error UInt32 :=
  match (hit.at? ["_source", "seq"]).bind Json.asNat? with
  | some n => pure (UInt32.ofNat n)
  | none => throw (unexpected "hit without seq" hit)

/-- The ledgers found, in the order of the reply. -/
def seqsOf (j : Json) : Except Error (List UInt32) :=
  match (j.at? ["hits", "hits"]).bind Json.asArray? with
  | some hits => hits.mapM seqOfHit
  | none => throw (unexpected "search response without hits" j)

/-- A bucket of the answer; the engine tells its bounds as fractions. -/
def bucketOf (b : Json) : Except Error Bucket :=
  let number (name : String) := (b.get? name).bind Json.asFloat?
  match number "from", number "to", (b.get? "doc_count").bind Json.asNat? with
  | some start, some stop, some count =>
    pure ⟨start.toUInt32Saturating, stop.toUInt32Saturating, count⟩
  | _, _, _ => throw (unexpected "malformed range bucket" b)

/-- The first malformed bucket makes the whole answer an error. -/
def bucketsOf (j : Json) : Except Error (List Bucket) :=
  match (j.at? ["aggregations", "ranges", "buckets"]).bind Json.asArray? with
  | some buckets => buckets.mapM bucketOf
  | none => throw (unexpected "range aggregation missing" j)

/-- The number of documents of an index. -/
def countOf (j : Json) : Except Error Nat :=
  match (j.get? "count").bind Json.asNat? with
  | some n => pure n
  | none => throw (unexpected "count response without count" j)

end LedgerSearch.Search
