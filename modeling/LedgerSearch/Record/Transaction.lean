import LedgerSearch.Record.Operation

/-
  Transactions and the signed envelopes they travel in.
-/

namespace LedgerSearch

open Wire

/-- What a transaction is marked with. -/
inductive Memo where
  | none
  | text (bytes : Bytes)
  | id (n : UInt64)
  | hash (h : Hash)
  | returnHash (h : Hash)
deriving DecidableEq

namespace Memo

/-- The number of the kind in the record. -/
def tag : Memo → Int32
  | .none => 0
  | .text _ => 1
  | .id _ => 2
  | .hash _ => 3
  | .returnHash _ => 4

/-- A text has at most 28 bytes; nothing says that they are characters. -/
def codec : Codec Memo :=
  Codec.tagged tag fun t =>
    match t.toInt with
    | 0 => .only .none
    | 1 => (Codec.bytes "MemoText" 28).arm .text fun
      | .text bytes => some bytes
      | _ => Option.none
    | 2 => Codec.uint64.arm .id fun
      | .id n => some n
      | _ => Option.none
    | 3 => Codec.hash.arm .hash fun
      | .hash h => some h
      | _ => Option.none
    | 4 => Codec.hash.arm .returnHash fun
      | .returnHash h => some h
      | _ => Option.none
    | _ => .unknown "MemoType" t

end Memo

/-- When a transaction is valid, in unix seconds; an upper bound of zero is none. -/
structure TimeBounds where
  min : UInt64
  max : UInt64
deriving DecidableEq

/-- The earliest time, then the latest. -/
def TimeBounds.codec : Codec TimeBounds :=
  (Codec.uint64.pair Codec.uint64).imap (fun (min, max) => ⟨min, max⟩) fun b => (b.min, b.max)

/-- A transaction without its signatures. -/
structure Transaction where
  source : MuxedAccount
  fee : UInt32
  seqNum : Int64
  timeBounds : Option TimeBounds
  memo : Memo
  operations : List Operation
deriving DecidableEq

namespace Transaction

/-- A transaction whose source account is written by `source`. -/
def codecFrom (source : Codec MuxedAccount) : Codec Transaction :=
  ((source.pair <| Codec.uint32.pair <| Codec.int64.pair <|
    (Codec.option TimeBounds.codec).pair <| Memo.codec.pair
    (Codec.array "operations" 100 Operation.codec)).before (Codec.emptyExt "TransactionExt")).imap
    (fun (source, fee, seqNum, timeBounds, memo, operations) =>
      ⟨source, fee, seqNum, timeBounds, memo, operations⟩)
    fun t => (t.source, t.fee, t.seqNum, t.timeBounds, t.memo, t.operations)

/-- The older form, whose source is a bare key. -/
def legacyCodec : Codec Transaction := codecFrom MuxedAccount.plain

/-- The form whose source may be muxed. -/
def codec : Codec Transaction := codecFrom MuxedAccount.codec

end Transaction

/-- At most twenty signatures. -/
def signaturesCodec : Codec (List Signature) := Codec.array "signatures" 20 Signature.codec

/-- A signed transaction whose fee another account pays. -/
structure FeeBump where
  feeSource : MuxedAccount
  fee : Int64
  inner : Transaction
  innerSignatures : List Signature
deriving DecidableEq

namespace FeeBump

/-- The inner transaction of a fee bump is always of the plain form. -/
def innerCodec : Codec (Transaction × List Signature) :=
  Codec.tagged (fun _ => 2) fun t =>
    match t.toInt with
    | 2 => Transaction.codec.pair signaturesCodec
    | _ => .unknown "FeeBumpInnerTx" t

/-- Who pays the fee and how much, then the inner transaction with its signatures. -/
def codec : Codec FeeBump :=
  ((MuxedAccount.codec.pair <| Codec.int64.pair innerCodec).before
    (Codec.emptyExt "FeeBumpTransactionExt")).imap
    (fun (feeSource, fee, inner, innerSignatures) => ⟨feeSource, fee, inner, innerSignatures⟩)
    fun b => (b.feeSource, b.fee, b.inner, b.innerSignatures)

end FeeBump

/-- What the signatures of an envelope are made for. -/
inductive Payload where
  | legacy (tx : Transaction)
  | plain (tx : Transaction)
  | feeBump (bump : FeeBump)
deriving DecidableEq

namespace Payload

/-- The number of the envelope's kind. -/
def tag : Payload → Int32
  | .legacy _ => 0
  | .plain _ => 2
  | .feeBump _ => 5

/-- The three forms of an envelope. -/
def codec : Codec Payload :=
  Codec.tagged tag fun t =>
    match t.toInt with
    | 0 => Transaction.legacyCodec.arm .legacy fun
      | .legacy tx => some tx
      | _ => none
    | 2 => Transaction.codec.arm .plain fun
      | .plain tx => some tx
      | _ => none
    | 5 => FeeBump.codec.arm .feeBump fun
      | .feeBump bump => some bump
      | _ => none
    | _ => .unknown "EnvelopeType" t

/-- The transaction whose operations are applied. -/
def tx : Payload → Transaction
  | .legacy tx => tx
  | .plain tx => tx
  | .feeBump bump => bump.inner

end Payload

/-- A transaction in one of its forms, signed. -/
structure Envelope where
  payload : Payload
  signatures : List Signature
deriving DecidableEq

namespace Envelope

/-- The signatures stand behind what they sign. -/
def codec : Codec Envelope :=
  (Payload.codec.pair signaturesCodec).imap (fun (payload, signatures) => ⟨payload, signatures⟩)
    fun e => (e.payload, e.signatures)

/-- An envelope together with the bytes that were signed, those of its payload after the number of
    the kind. -/
def readSigned : Reader (Envelope × Bytes) := do
  let (payload, bs) ← Payload.codec.read.consumed
  let signatures ← signaturesCodec.read
  pure (⟨payload, signatures⟩, bs.drop 4)

/-- The transaction itself, or the inner one of a fee bump. -/
def tx (e : Envelope) : Transaction := e.payload.tx

/-- The account the transaction is of, without a muxed number. -/
def source (e : Envelope) : AccountId := e.tx.source.account

/-- The account that pays the fee. -/
def feeAccount (e : Envelope) : AccountId :=
  match e.payload with
  | .feeBump bump => bump.feeSource.account
  | _ => e.source

/-- A fee bump offers the fee of its own, not that of its inner transaction. -/
def maxFee (e : Envelope) : Int64 :=
  match e.payload with
  | .feeBump bump => bump.fee
  | _ => Int64.ofInt e.tx.fee.toNat

/-- The operations of the transaction, or of the inner one of a fee bump. -/
def operations (e : Envelope) : List Operation := e.tx.operations

/-- Whether somebody else pays the fee. -/
def isFeeBump (e : Envelope) : Bool :=
  match e.payload with
  | .feeBump _ => true
  | _ => false

end Envelope

end LedgerSearch
