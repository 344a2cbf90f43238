import LedgerSearch.Digest.Sha256
import LedgerSearch.Record.Row
import LedgerSearch.Text.Hex

/-
  Ledgers as a validator announces them when they close: the header, the envelopes of the
  transaction set in any order, and for each transaction, in the order of application, its result
  and its changes. A result names its transaction by hash, so the envelopes are hashed to find the
  one it belongs to. What follows in the frame is not read.
-/

namespace LedgerSearch

open Wire

/-- What decides the hash of a transaction besides its bytes. -/
structure Network where
  id : Hash
  digest : Bytes → Hash := Digest.Sha256.digest

namespace Network

/-- The network of that passphrase. -/
def ofPassphrase (passphrase : String) : Network where
  id := Digest.Sha256.digest passphrase.toUTF8.toList

/-- What is digested for the hash of a transaction with the bytes `bs`. The older form hashes like
    the newer one with a bare key as its source. -/
def preimage (n : Network) (p : Payload) (bs : Bytes) : Bytes :=
  match p with
  | .legacy _ => n.id.bytes ++ bigEndianBytes 4 2 ++ bigEndianBytes 4 0 ++ bs
  | _ => n.id.bytes ++ bigEndianBytes 4 p.tag.toUInt32.toNat ++ bs

/-- What a transaction is known by on this network. -/
def hash (n : Network) (p : Payload) (bs : Bytes) : Hash := n.digest (n.preimage p bs)

end Network

/-- What applying one transaction did. -/
structure Applied where
  result : ResultPair
  feeChanges : List EntryChange
  changes : TransactionMeta
deriving DecidableEq

/-- The result, the changes of the fee and the changes of the transaction, in this order. -/
def Applied.read : Reader Applied := do
  let result ← ResultPair.codec.read
  let feeChanges ← EntryChange.readAll
  let changes ← TransactionMeta.read
  pure ⟨result, feeChanges, changes⟩

/-- A closed ledger with its transactions. -/
structure LedgerClose where
  ledger : LedgerRow
  transactions : List TransactionRow
  fees : List FeeRow
deriving DecidableEq

namespace LedgerClose

/-- The number of the ledger that closed. -/
def seq (c : LedgerClose) : UInt32 := c.ledger.seq

/-- The envelopes of a transaction set with their hashes. A count of more envelopes than there are
    bytes left is refused at once. -/
def readSet (n : Network) : Reader (List (Hash × Envelope)) := do
  let _ ← Reader.block 32
  let count ← Reader.uint32
  let left ← Reader.remaining
  if left < count.toNat then throw (.lengthExceeded "txs" count.toNat left)
  let signed ← Reader.times Envelope.readSigned count.toNat
  pure (signed.map fun (e, bs) => (n.hash e.payload bs, e))

/-- Only version zero of the record is known. -/
def read (n : Network) : Reader (HistoryEntry × List (Hash × Envelope) × List Applied) := do
  let version ← Reader.int32
  if version ≠ 0 then throw (.unknownDiscriminant "LedgerCloseMeta" version)
  let entry ← HistoryEntry.codec.read
  let set ← readSet n
  let applied ← Reader.array "txProcessing" unbounded Applied.read
  pure (entry, set, applied)

/-- Gives each result the envelope of its hash, the last one where several share it. An envelope
    serves one result only. -/
def join (seq : UInt32) (set : List (Hash × Envelope)) :
    List Applied → Except DecodeError (List (Applied × Envelope))
  | [] => .ok []
  | a :: rest =>
    match set.reverse.lookup a.result.hash with
    | none => .error (.invalid
        (s!"ledger {seq.toNat} result {Text.Hex.encode a.result.hash.bytes} " ++
          "has no envelope in the transaction set"))
    | some e =>
      (join seq (set.filter (·.1 ≠ a.result.hash)) rest).map ((a, e) :: ·)

/-- The rows of the transactions, numbered from `index` on. -/
def transactionRows (seq : UInt32) (index : Nat) : List (Applied × Envelope) → List TransactionRow
  | [] => []
  | (a, e) :: rest =>
    ⟨a.result.hash, seq, UInt32.ofNat index, e, a.result.result, a.changes⟩ ::
      transactionRows seq (index + 1) rest

/-- The rows of the fee charges, numbered like those of the transactions. -/
def feeRows (seq : UInt32) (index : Nat) : List (Applied × Envelope) → List FeeRow
  | [] => []
  | (a, _) :: rest =>
    ⟨a.result.hash, seq, UInt32.ofNat index, a.feeChanges⟩ :: feeRows seq (index + 1) rest

/-- The ledger a frame announces. -/
def decode (n : Network) (frame : Bytes) : Except Error LedgerClose := do
  let (entry, set, applied) ← match read n (Cursor.ofBytes frame) with
    | .ok parts _ => pure parts
    | .error e _ => throw (.decode e)
  let seq := entry.header.seq
  let joined ← match join seq set applied with
    | .ok joined => pure joined
    | .error e => throw (.decode e)
  let ledger ← LedgerRow.ofHeader entry.hash entry.header
  pure ⟨ledger, transactionRows seq 1 joined, feeRows seq 1 joined⟩

end LedgerClose

end LedgerSearch
