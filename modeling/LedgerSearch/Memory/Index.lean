import Std.Data.HashMap
import LedgerSearch.Bulk
import LedgerSearch.Program.Site

/-
  A document index kept in memory: documents by index and id, and the ledgers that have one.
-/

namespace LedgerSearch.Memory

/-- Puts a sequence at its place in an ascending list, once. -/
def insertSeq (seq : UInt32) : List UInt32 → List UInt32
  | [] => [seq]
  | s :: rest =>
    if seq < s then seq :: s :: rest
    else if seq = s then s :: rest
    else s :: insertSeq seq rest

/-- An index kept in memory. -/
structure Index where
  /-- What stands in front of the names of the indexes. -/
  deployment : String
  /-- Documents by the name of their index and their id. -/
  documents : Std.HashMap (String × String) Json := ∅
  /-- The ledgers that have a document, ascending. -/
  held : List UInt32 := []

namespace Index

/-- The ledger an entry is the document of, if it goes to a ledger index. -/
def ledgerOf? (e : BulkEntry) : Option UInt32 :=
  if e.index.endsWith (IndexName.text .ledger) then
    ((e.source.get? "seq").bind Json.asNat?).map UInt32.ofNat
  else none

/-- The ledgers whose documents are in a body. -/
def ledgersOf (b : BulkBody) : List UInt32 := b.filterMap ledgerOf?

/-- A document without an id gets the number of documents for one. -/
def storeEntry (x : Index) (e : BulkEntry) : Index :=
  let id := e.id.getD (toString x.documents.size)
  let held := match ledgerOf? e with
    | some seq => insertSeq seq x.held
    | none => x.held
  { x with documents := x.documents.insert (e.index, id) e.source, held }

/-- Every document of the body in the place of one with the same id. -/
def store (x : Index) (b : BulkBody) : Index := b.foldl storeEntry x

/-- The names of the indexes that have documents, with their number. -/
def counts (x : Index) : List (String × Nat) :=
  let names := (x.documents.toList.map (·.1.1))
  names.eraseDups.map fun n => (n, names.count n)

/-- The ledger documents are counted by what is held. -/
def count (x : Index) (n : IndexName) : Nat :=
  if n = .ledger then x.held.length
  else (x.counts.lookup (n.qualified x.deployment)).getD 0

/-- The first and the last ledger held, if any is. -/
def bounds (x : Index) : Option (UInt32 × UInt32) := do
  some (← x.held.head?, ← x.held.getLast?)

/-- The ledgers `lo ≤ seq < hi` that have a document. -/
def seqsIn (x : Index) (lo hi : UInt32) : List UInt32 :=
  x.held.filter fun seq => lo ≤ seq && seq < hi

/-- How many ledgers each part of the range holds. -/
def buckets (x : Index) (start stop interval : UInt32) : List Bucket :=
  (bucketRanges start stop interval).map fun (a, b) => ⟨a, b, (x.seqsIn a b).length⟩

end Index

end LedgerSearch.Memory
