import LedgerSearch.Database.Statement
import LedgerSearch.Program.Site
import LedgerSearch.Text.Hex
import LedgerSearch.Wire.Text

/-
  Questions to the source of ledger history as statements to a database, and the records that are in
  its rows.
-/

namespace LedgerSearch.Database

open Wire

/-- The sequence a column holds; numbers from 2 ^ 31 on are stored as negative ones. -/
def seqOf (n : Int32) : UInt32 := n.toUInt32

/-- Sequences as the column type of the database, which has a sign. -/
def columnsOf (seqs : List UInt32) : List Int32 := seqs.map (·.toInt32)

/-- A hash is kept as text; it must be 32 bytes in hexadecimal. -/
def readHash (table text : String) : Except Error Hash :=
  let malformed (reason : String) : Error := .source (.malformedRow table text reason)
  match Text.Hex.decode text with
  | .error fault => .error (malformed fault.message)
  | .ok bs =>
    match Block.ofBytes? 32 bs with
    | some h => .ok h
    | none => .error (malformed s!"hash is {bs.length} bytes")

/-- A record is kept as the text of its bytes; an error tells of the record and not of its row. -/
def readRecord {α : Type} (r : Reader α) (text : String) : Except Error α :=
  (r.decodeText text).mapError .decode

/-- The header in a row must be of the ledger that the row is for. -/
def readHeader (c : HeaderColumns) : Except Error LedgerRow := do
  let hash ← readHash "ledgerheaders" c.hash
  let header ← readRecord LedgerHeader.codec.read c.data
  if header.seq ≠ seqOf c.seq then
    throw (.source (.malformedRow "ledgerheaders" (toString (seqOf c.seq).toNat)
      s!"header carries sequence {header.seq.toNat}"))
  LedgerRow.ofHeader hash header

/-- A row of transactions: its result stands in a pair whose hash is not compared. -/
def readTransaction (c : TransactionColumns) : Except Error TransactionRow := do
  let hash ← readHash "txhistory" c.hash
  let pair ← readRecord ResultPair.codec.read c.result
  let envelope ← readRecord Envelope.codec.read c.body
  let changes ← readRecord TransactionMeta.read c.changes
  pure ⟨hash, seqOf c.seq, seqOf c.index, envelope, pair.result, changes⟩

/-- A row of fees. -/
def readFee (c : FeeColumns) : Except Error FeeRow := do
  let hash ← readHash "txfeehistory" c.hash
  let changes ← readRecord EntryChange.readAll c.changes
  pure ⟨hash, seqOf c.seq, seqOf c.index, changes⟩

/-- What a statement fails with when the database does. -/
def databaseError (text : String) : Failure := .error (.source (.database text))

/-- The rows of a statement, each of them read; a failed statement or row stops the program. -/
def rows {α : Type} (s : Statement) (read : s.Row → Except Error α) :
    Program Connection (List α) :=
  .ask s fun (reply : Except String (List s.Row)) =>
    match reply with
    | .ok rows => .ofResult (rows.mapM read)
    | .error text => .stop (databaseError text)

/-- The one number a statement gives. -/
def scalar (s : Statement) (read : s.Row → Option UInt32) : Program Connection (Option UInt32) := do
  match ← rows s (fun r => .ok (read r)) with
  | seq :: _ => pure seq
  | [] => .stop (databaseError
      "no rows returned by a query that expected to return at least one row")

/-- The first row of a statement, if it gives any. -/
def first {α : Type} (s : Statement) (read : s.Row → Except Error α) :
    Program Connection (Option α) :=
  .ask s fun (reply : Except String (List s.Row)) =>
    match reply with
    | .ok rows => .ofResult (rows.head?.mapM read)
    | .error text => .stop (databaseError text)

/-- How the database answers a question. No statement is sent for no ledgers. -/
def query : (q : HistoryQuery) → Program Connection q.Reply
  | .ledgersInRange start count =>
    rows (.headersInRange (Int64.ofInt start.toNat) (Int64.ofInt (start.toNat + count.toNat)))
      readHeader
  | .ledgersBySeq seqs =>
    if seqs.isEmpty then .done [] else rows (.headersBySeq (columnsOf seqs)) readHeader
  | .nextLedgerAfter seq => first (.headerAfter (Int64.ofInt seq.toNat)) readHeader
  | .transactionsOf seqs =>
    if seqs.isEmpty then .done [] else rows (.transactions (columnsOf seqs)) readTransaction
  | .feesOf seqs => if seqs.isEmpty then .done [] else rows (.fees (columnsOf seqs)) readFee
  | .firstSeq => scalar .minSeq fun (n : Option Int32) => n.map seqOf
  | .lastSeq => scalar .maxSeq fun (n : Option Int32) => n.map seqOf
  | .gaps => rows .gaps fun (c : GapColumns) => .ok ⟨seqOf c.start, seqOf c.stop⟩

end LedgerSearch.Database
