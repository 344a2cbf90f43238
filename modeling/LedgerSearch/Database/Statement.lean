import LedgerSearch.Program.Basic

/-
  The statements that are sent to the history database, and the rows they give. The database counts
  ledgers with signed 32-bit numbers.
-/

namespace LedgerSearch.Database

/-- What the database of closed ledgers is asked. -/
inductive Statement where
  | headersInRange (start stop : Int64)
  | headersBySeq (seqs : List Int32)
  | headerAfter (seq : Int64)
  | transactions (seqs : List Int32)
  | fees (seqs : List Int32)
  | minSeq
  | maxSeq
  | gaps
deriving DecidableEq

/-- A row of the header table as it is stored. -/
structure HeaderColumns where
  hash : String
  seq : Int32
  data : String

/-- A row of the transaction table as it is stored. -/
structure TransactionColumns where
  hash : String
  seq : Int32
  index : Int32
  body : String
  result : String
  changes : String

/-- A row of the fee table as it is stored. -/
structure FeeColumns where
  hash : String
  seq : Int32
  index : Int32
  changes : String

/-- A run of sequences that are not there, by both its ends. -/
structure GapColumns where
  start : Int32
  stop : Int32

/-- A value sent along with a statement. -/
inductive Param where
  | number (n : Int64)
  | numbers (ns : List Int32)

namespace Statement

/-- The rows that answer a statement; an empty table has no smallest and no largest sequence. -/
abbrev Row : Statement → Type
  | .headersInRange _ _ | .headersBySeq _ | .headerAfter _ => HeaderColumns
  | .transactions _ => TransactionColumns
  | .fees _ => FeeColumns
  | .minSeq | .maxSeq => Option Int32
  | .gaps => GapColumns

/-- The text that is prepared, its parameters numbered. -/
def sql : Statement → String
  | .headersInRange _ _ => "SELECT ledgerhash, ledgerseq, data FROM ledgerheaders WHERE ledgerseq >= $1 AND ledgerseq < $2 ORDER BY ledgerseq"
  | .headersBySeq _ => "SELECT ledgerhash, ledgerseq, data FROM ledgerheaders WHERE ledgerseq = ANY($1) ORDER BY ledgerseq"
  | .headerAfter _ => "SELECT ledgerhash, ledgerseq, data FROM ledgerheaders WHERE ledgerseq > $1 ORDER BY ledgerseq LIMIT 1"
  | .transactions _ => "SELECT txid, ledgerseq, txindex, txbody, txresult, txmeta FROM txhistory WHERE ledgerseq = ANY($1) ORDER BY ledgerseq, txindex"
  | .fees _ => "SELECT txid, ledgerseq, txindex, txchanges FROM txfeehistory WHERE ledgerseq = ANY($1) ORDER BY ledgerseq, txindex"
  | .minSeq => "SELECT MIN(ledgerseq) FROM ledgerheaders"
  | .maxSeq => "SELECT MAX(ledgerseq) FROM ledgerheaders"
  | .gaps => "SELECT prev + 1 AS gap_start, ledgerseq - 1 AS gap_end FROM ( SELECT ledgerseq, LAG(ledgerseq) OVER (ORDER BY ledgerseq) AS prev FROM ledgerheaders ) seqs WHERE ledgerseq - prev > 1 ORDER BY gap_start"

/-- The values that are bound, in the order the text numbers them. -/
def params : Statement → List Param
  | .headersInRange start stop => [.number start, .number stop]
  | .headerAfter seq => [.number seq]
  | .headersBySeq seqs | .transactions seqs | .fees seqs => [.numbers seqs]
  | .minSeq | .maxSeq | .gaps => []

end Statement

/-- The surroundings of a program that sends statements; a statement may fail with a text. -/
abbrev Connection : Interface := ⟨Statement, fun s => Except String (List s.Row)⟩

end LedgerSearch.Database
