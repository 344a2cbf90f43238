import LedgerSearch.LedgerClose
import LedgerSearch.Program.Site

/-
  A source of ledger history kept in memory: ledgers with their rows, in the order of their
  sequences.
-/

namespace LedgerSearch.Memory

/-- Closed ledgers, ascending. -/
abbrev History := List LedgerClose

namespace History

/-- Puts a ledger at its place, over one of the same sequence. -/
def insert (c : LedgerClose) : History → History
  | [] => [c]
  | d :: rest =>
    if c.seq < d.seq then c :: d :: rest
    else if c.seq = d.seq then c :: rest
    else d :: insert c rest

/-- The history without a ledger and all its rows. -/
def erase (h : History) (seq : UInt32) : History := h.filter (·.seq ≠ seq)

/-- The ledgers of a list that the history has, in its own order. -/
def among (h : History) (seqs : List UInt32) : History := h.filter (seqs.contains ·.seq)

/-- The runs missing between the ledgers, which are ascending. -/
def gaps : History → List Gap
  | c :: d :: rest =>
    if c.seq.toNat + 1 < d.seq.toNat then ⟨c.seq + 1, d.seq - 1⟩ :: gaps (d :: rest)
    else gaps (d :: rest)
  | _ => []

/-- What a database with this history answers. -/
def answer (h : History) : (q : HistoryQuery) → q.Reply
  | .ledgersInRange start count =>
    (h.filter fun c => start ≤ c.seq && c.seq.toNat < start.toNat + count.toNat).map (·.ledger)
  | .ledgersBySeq seqs => (h.among seqs).map (·.ledger)
  | .nextLedgerAfter seq => (h.find? (seq < ·.seq)).map (·.ledger)
  | .transactionsOf seqs => (h.among seqs).flatMap (·.transactions)
  | .feesOf seqs => (h.among seqs).flatMap (·.fees)
  | .firstSeq => h.head?.map (·.seq)
  | .lastSeq => h.getLast?.map (·.seq)
  | .gaps => gaps h

end History

end LedgerSearch.Memory
