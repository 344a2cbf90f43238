import LedgerSearch.IndexName
import LedgerSearch.Metrics
import LedgerSearch.Program.Basic
import LedgerSearch.Record.Row
import LedgerSearch.Search.Reply

/-
  What programs work with: a source of ledger history, a document index, a clock and counters. A
  query of the source or index may fail.
-/

namespace LedgerSearch

/-- A question to the source of ledger history. -/
inductive HistoryQuery where
  /-- The ledgers `start ≤ seq < start + count`, ascending. -/
  | ledgersInRange (start count : UInt32)
  /-- The ledgers of these sequences, ascending; absent ones are left out. -/
  | ledgersBySeq (seqs : List UInt32)
  | nextLedgerAfter (seq : UInt32)
  /-- The transactions of these ledgers, by ledger and order of application. -/
  | transactionsOf (seqs : List UInt32)
  /-- The fee charges of these ledgers, by ledger and order of application. -/
  | feesOf (seqs : List UInt32)
  | firstSeq
  | lastSeq
  /-- The runs of ledgers missing between those the source has. -/
  | gaps
deriving DecidableEq

/-- What the database answers a query with. -/
abbrev HistoryQuery.Reply : HistoryQuery → Type
  | .ledgersInRange _ _ | .ledgersBySeq _ => List LedgerRow
  | .nextLedgerAfter _ => Option LedgerRow
  | .transactionsOf _ => List TransactionRow
  | .feesOf _ => List FeeRow
  | .firstSeq | .lastSeq => Option UInt32
  | .gaps => List Gap

/-- A call of the document index. -/
inductive IndexCall (Body : Type) where
  | bulk (body : Body)
  /-- The lowest and highest ledger that has a document. -/
  | bounds
  /-- The ledgers `lo ≤ seq < hi` that have a document, ascending. -/
  | seqsIn (lo hi : UInt32)
  | count (n : IndexName)
  /-- Ledger documents by runs of `interval` sequences of `[start, stop)`. -/
  | buckets (start stop interval : UInt32)
  | create (n : IndexName) (mapping : Json)
  | delete (n : IndexName)

/-- What the index answers a call with. -/
abbrev IndexCall.Reply {Body : Type} : IndexCall Body → Type
  | .bulk _ => Search.BulkReply
  | .bounds => Option (UInt32 × UInt32)
  | .seqsIn _ _ => List UInt32
  | .count _ => Nat
  | .buckets _ _ _ => List Bucket
  | .create _ _ | .delete _ => Unit

namespace Site

/-- What the program asks of the world. -/
inductive Request (Body : Type) where
  | history (q : HistoryQuery)
  | index (c : IndexCall Body)
  /-- Let so many milliseconds pass. -/
  | wait (ms : Nat)
  | increment (c : Counter) (n : Nat)

/-- The database and the index may fail; waiting and counting do not. -/
abbrev Reply {Body : Type} : Request Body → Type
  | .history q => Except Error q.Reply
  | .index c => Except Error c.Reply
  | .wait _ | .increment _ _ => Unit

end Site

/-- The surroundings of a program that sends bulk bodies of this type. -/
abbrev Site (Body : Type) : Interface := ⟨Site.Request Body, Site.Reply⟩

namespace Site

variable {Body : Type}

/-- The answer of the source; a failed query stops the program. -/
def history (q : HistoryQuery) : Program (Site Body) q.Reply :=
  .ask (.history q) fun (reply : Except Error q.Reply) => .ofResult reply

/-- The answer of the index; a failed call stops the program. -/
def index (c : IndexCall Body) : Program (Site Body) c.Reply :=
  .ask (.index c) fun (reply : Except Error c.Reply) => .ofResult reply

/-- The answer of the index, or why there is none. -/
def tryIndex (c : IndexCall Body) : Program (Site Body) (Except Error c.Reply) :=
  .ask (.index c) .done

/-- Lets so many milliseconds pass. -/
def wait (ms : Nat) : Program (Site Body) Unit := .ask (.wait ms) fun _ => .done ()

/-- Adds to a counter. -/
def increment (c : Counter) (n : Nat) : Program (Site Body) Unit :=
  .ask (.increment c n) fun _ => .done ()

end Site

end LedgerSearch
