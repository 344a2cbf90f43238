import LedgerSearch.Record.Account

/-
  The header of a closed ledger.
-/

namespace LedgerSearch

open Wire

/-- What the network agreed on for a ledger; a signed value carries its node and signature. -/
structure CloseValue where
  txSetHash : Hash
  closeTime : UInt64
  upgrades : List Bytes
  signature : Option (AccountId × Bytes)
deriving DecidableEq

namespace CloseValue

/-- The number of the form, with or without a signature. -/
def signatureTag : Option (AccountId × Bytes) → Int32
  | none => 0
  | some _ => 1

/-- The signature of the node that proposed the value, after the node's own account. -/
def signatureCodec : Codec (Option (AccountId × Bytes)) :=
  Codec.tagged signatureTag fun t =>
    match t.toInt with
    | 0 => .only none
    | 1 => (AccountId.codec.pair (Codec.bytes "Signature" 64)).arm some id
    | _ => .unknown "StellarValueType" t

/-- At most six upgrades of at most 128 bytes each. -/
def codec : Codec CloseValue :=
  (Codec.hash.pair <| Codec.uint64.pair <|
    (Codec.array "upgrades" 6 (Codec.bytes "string" 128)).pair signatureCodec).imap
    (fun (txSetHash, closeTime, upgrades, signature) => ⟨txSetHash, closeTime, upgrades, signature⟩)
    fun v => (v.txSetHash, v.closeTime, v.upgrades, v.signature)

end CloseValue

/-- The header of a ledger. -/
structure LedgerHeader where
  version : UInt32
  previousHash : Hash
  value : CloseValue
  resultHash : Hash
  bucketHash : Hash
  seq : UInt32
  totalCoins : Int64
  feePool : Int64
  inflationSeq : UInt32
  idPool : UInt64
  baseFee : UInt32
  baseReserve : UInt32
  maxTxSetSize : UInt32
  /-- Hashes of four earlier ledgers. -/
  skipList : Hash × Hash × Hash × Hash
  flags : Option UInt32
deriving DecidableEq

namespace LedgerHeader

/-- The number of the form, with or without flags. -/
def flagsTag : Option UInt32 → Int32
  | none => 0
  | some _ => 1

/-- The flags stand in an extension, which carries none of its own. -/
def flagsCodec : Codec (Option UInt32) :=
  Codec.tagged flagsTag fun t =>
    match t.toInt with
    | 0 => .only none
    | 1 => (Codec.uint32.before (Codec.emptyExt "LedgerHeaderExtensionV1")).arm some id
    | _ => .unknown "LedgerHeaderExt" t

/-- The fields in the order of the record, the extension with the flags last. -/
def codec : Codec LedgerHeader :=
  (Codec.uint32.pair <| Codec.hash.pair <| CloseValue.codec.pair <| Codec.hash.pair <|
    Codec.hash.pair <| Codec.uint32.pair <| Codec.int64.pair <| Codec.int64.pair <|
    Codec.uint32.pair <| Codec.uint64.pair <| Codec.uint32.pair <| Codec.uint32.pair <|
    Codec.uint32.pair <|
    (Codec.hash.pair <| Codec.hash.pair <| Codec.hash.pair Codec.hash).pair flagsCodec).imap
    (fun (version, previousHash, value, resultHash, bucketHash, seq, totalCoins, feePool,
        inflationSeq, idPool, baseFee, baseReserve, maxTxSetSize, skipList, flags) =>
      ⟨version, previousHash, value, resultHash, bucketHash, seq, totalCoins, feePool,
        inflationSeq, idPool, baseFee, baseReserve, maxTxSetSize, skipList, flags⟩)
    fun h => (h.version, h.previousHash, h.value, h.resultHash, h.bucketHash, h.seq, h.totalCoins,
      h.feePool, h.inflationSeq, h.idPool, h.baseFee, h.baseReserve, h.maxTxSetSize, h.skipList,
      h.flags)

end LedgerHeader

/-- A header with the hash of its ledger. -/
structure HistoryEntry where
  hash : Hash
  header : LedgerHeader
deriving DecidableEq

/-- The hash that the header was recorded with, then the header. -/
def HistoryEntry.codec : Codec HistoryEntry :=
  ((Codec.hash.pair LedgerHeader.codec).before
    (Codec.emptyExt "LedgerHeaderHistoryEntryExt")).imap
    (fun (hash, header) => ⟨hash, header⟩) fun e => (e.hash, e.header)

end LedgerSearch
