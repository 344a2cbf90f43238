import LedgerSearch.Record.Offer

/-
  Results of operations and transactions. A code of zero is success; a code without a payload of
  its own is kept as a number.
-/

namespace LedgerSearch

open Wire

/-- What arrived at the end of a path payment. -/
structure SimplePayment where
  destination : AccountId
  asset : Asset
  amount : Int64
deriving DecidableEq

/-- The account that was paid, in which asset and how much. -/
def SimplePayment.codec : Codec SimplePayment :=
  (AccountId.codec.pair <| Asset.codec.pair Codec.int64).imap
    (fun (destination, asset, amount) => ⟨destination, asset, amount⟩)
    fun p => (p.destination, p.asset, p.amount)

/-- How a path payment went. -/
inductive PathPaymentResult where
  | success (offers : List ClaimAtom) (last : SimplePayment)
  | noIssuer (asset : Asset)
  | failure (code : Int32)
deriving DecidableEq

namespace PathPaymentResult

/-- A failure keeps the code it was recorded with. -/
def code : PathPaymentResult → Int32
  | .success .. => 0
  | .noIssuer _ => -9
  | .failure code => code

/-- Two of the codes carry a payload. -/
def codec : Codec PathPaymentResult :=
  Codec.tagged code fun t =>
    match t.toInt with
    | 0 => ((Codec.array "offers" unbounded ClaimAtom.codec).pair SimplePayment.codec).arm
      (fun (offers, last) => .success offers last) fun
      | .success offers last => some (offers, last)
      | _ => none
    | -9 => Asset.codec.arm .noIssuer fun
      | .noIssuer asset => some asset
      | _ => none
    | _ => .only (.failure t)

end PathPaymentResult

/-- What a manage-offer operation left on the book. -/
inductive OfferEffect where
  | created (offer : OfferEntry)
  | updated (offer : OfferEntry)
  | deleted
deriving DecidableEq

namespace OfferEffect

/-- The number of the effect in the record. -/
def tag : OfferEffect → Int32
  | .created _ => 0
  | .updated _ => 1
  | .deleted => 2

/-- A deleted offer carries nothing. -/
def codec : Codec OfferEffect :=
  Codec.tagged tag fun t =>
    match t.toInt with
    | 0 => OfferEntry.codec.arm .created fun
      | .created offer => some offer
      | _ => none
    | 1 => OfferEntry.codec.arm .updated fun
      | .updated offer => some offer
      | _ => none
    | 2 => .only .deleted
    | _ => .unknown "ManageOfferEffect" t

end OfferEffect

/-- How an operation that makes or changes an offer went. -/
inductive ManageOfferResult where
  | success (claimed : List ClaimAtom) (offer : OfferEffect)
  | failure (code : Int32)
deriving DecidableEq

namespace ManageOfferResult

/-- Zero tells success, any other code a failure. -/
def code : ManageOfferResult → Int32
  | .success .. => 0
  | .failure code => code

/-- Only success carries a payload. -/
def codec : Codec ManageOfferResult :=
  Codec.tagged code fun t =>
    match t.toInt with
    | 0 => ((Codec.array "offersClaimed" unbounded ClaimAtom.codec).pair OfferEffect.codec).arm
      (fun (claimed, offer) => .success claimed offer) fun
      | .success claimed offer => some (claimed, offer)
      | .failure _ => none
    | _ => .only (.failure t)

end ManageOfferResult

/-- How the merging of an account went. -/
inductive MergeResult where
  /-- The balance of the account that was merged. -/
  | success (balance : Int64)
  | failure (code : Int32)
deriving DecidableEq

namespace MergeResult

def code : MergeResult → Int32
  | .success _ => 0
  | .failure code => code

def codec : Codec MergeResult :=
  Codec.tagged code fun t =>
    match t.toInt with
    | 0 => Codec.int64.arm .success fun
      | .success balance => some balance
      | .failure _ => none
    | _ => .only (.failure t)

end MergeResult

/-- One winner of the inflation. -/
structure Payout where
  destination : AccountId
  amount : Int64
deriving DecidableEq

/-- The account, then what it won. -/
def Payout.codec : Codec Payout :=
  (AccountId.codec.pair Codec.int64).imap (fun (destination, amount) => ⟨destination, amount⟩)
    fun p => (p.destination, p.amount)

/-- How the payout of the inflation went. -/
inductive InflationResult where
  | success (payouts : List Payout)
  | failure (code : Int32)
deriving DecidableEq

namespace InflationResult

def code : InflationResult → Int32
  | .success _ => 0
  | .failure code => code

def codec : Codec InflationResult :=
  Codec.tagged code fun t =>
    match t.toInt with
    | 0 => (Codec.array "payouts" unbounded Payout.codec).arm .success fun
      | .success payouts => some payouts
      | .failure _ => none
    | _ => .only (.failure t)

end InflationResult

/-- The result of an operation that was tried, by kind; kinds without payload carry a code. -/
inductive KindResult where
  | createAccount (code : Int32)
  | payment (code : Int32)
  | pathPaymentStrictReceive (r : PathPaymentResult)
  | manageSellOffer (r : ManageOfferResult)
  | createPassiveSellOffer (r : ManageOfferResult)
  | setOptions (code : Int32)
  | changeTrust (code : Int32)
  | allowTrust (code : Int32)
  | accountMerge (r : MergeResult)
  | inflation (r : InflationResult)
  | manageData (code : Int32)
  | bumpSequence (code : Int32)
  | manageBuyOffer (r : ManageOfferResult)
  | pathPaymentStrictSend (r : PathPaymentResult)
deriving DecidableEq

namespace KindResult

/-- The kind of operation that the result is of. -/
def kind : KindResult → OperationKind
  | .createAccount _ => .createAccount
  | .payment _ => .payment
  | .pathPaymentStrictReceive _ => .pathPaymentStrictReceive
  | .manageSellOffer _ => .manageSellOffer
  | .createPassiveSellOffer _ => .createPassiveSellOffer
  | .setOptions _ => .setOptions
  | .changeTrust _ => .changeTrust
  | .allowTrust _ => .allowTrust
  | .accountMerge _ => .accountMerge
  | .inflation _ => .inflation
  | .manageData _ => .manageData
  | .bumpSequence _ => .bumpSequence
  | .manageBuyOffer _ => .manageBuyOffer
  | .pathPaymentStrictSend _ => .pathPaymentStrictSend

/-- The code of the kind, zero on success. -/
def code : KindResult → Int32
  | .createAccount code | .payment code | .setOptions code | .changeTrust code
  | .allowTrust code | .manageData code | .bumpSequence code => code
  | .pathPaymentStrictReceive r | .pathPaymentStrictSend r => r.code
  | .manageSellOffer r | .createPassiveSellOffer r | .manageBuyOffer r => r.code
  | .accountMerge r => r.code
  | .inflation r => r.code

/-- The offers a successful operation crossed. -/
def claimed : KindResult → List ClaimAtom
  | .pathPaymentStrictReceive (.success offers _) | .pathPaymentStrictSend (.success offers _) =>
    offers
  | .manageSellOffer (.success claimed _) | .createPassiveSellOffer (.success claimed _)
  | .manageBuyOffer (.success claimed _) => claimed
  | _ => []

/-- The number of the kind, then the result of that kind. -/
def codec : Codec KindResult :=
  Codec.tagged (fun r => r.kind.tag) fun t =>
    match t.toInt with
    | 0 => Codec.int32.arm .createAccount fun
      | .createAccount code => some code
      | _ => none
    | 1 => Codec.int32.arm .payment fun
      | .payment code => some code
      | _ => none
    | 2 => PathPaymentResult.codec.arm .pathPaymentStrictReceive fun
      | .pathPaymentStrictReceive r => some r
      | _ => none
    | 3 => ManageOfferResult.codec.arm .manageSellOffer fun
      | .manageSellOffer r => some r
      | _ => none
    | 4 => ManageOfferResult.codec.arm .createPassiveSellOffer fun
      | .createPassiveSellOffer r => some r
      | _ => none
    | 5 => Codec.int32.arm .setOptions fun
      | .setOptions code => some code
      | _ => none
    | 6 => Codec.int32.arm .changeTrust fun
      | .changeTrust code => some code
      | _ => none
    | 7 => Codec.int32.arm .allowTrust fun
      | .allowTrust code => some code
      | _ => none
    | 8 => MergeResult.codec.arm .accountMerge fun
      | .accountMerge r => some r
      | _ => none
    | 9 => InflationResult.codec.arm .inflation fun
      | .inflation r => some r
      | _ => none
    | 10 => Codec.int32.arm .manageData fun
      | .manageData code => some code
      | _ => none
    | 11 => Codec.int32.arm .bumpSequence fun
      | .bumpSequence code => some code
      | _ => none
    | 12 => ManageOfferResult.codec.arm .manageBuyOffer fun
      | .manageBuyOffer r => some r
      | _ => none
    | 13 => PathPaymentResult.codec.arm .pathPaymentStrictSend fun
      | .pathPaymentStrictSend r => some r
      | _ => none
    | _ => .unknown "OperationType" t

end KindResult

/-- The result of an operation, or why it was not tried. -/
inductive OperationResult where
  | inner (r : KindResult)
  | badAuth
  | noAccount
  | notSupported
  | tooManySubentries
  | exceededWorkLimit
  | tooManySponsoring
deriving DecidableEq

namespace OperationResult

/-- Zero where the operation was tried; the other codes tell why it was not. -/
def code : OperationResult → Int32
  | .inner _ => 0
  | .badAuth => -1
  | .noAccount => -2
  | .notSupported => -3
  | .tooManySubentries => -4
  | .exceededWorkLimit => -5
  | .tooManySponsoring => -6

/-- The result of the operation's own kind, if it was tried. -/
def inner? : OperationResult → Option KindResult
  | .inner r => some r
  | _ => none

/-- An operation that was tried succeeds with the code zero of its kind. -/
def isSuccess (r : OperationResult) : Bool :=
  match r with
  | .inner r => r.code = 0
  | _ => false

/-- Only an operation that was tried carries a payload. -/
def codec : Codec OperationResult :=
  Codec.tagged code fun t =>
    match t.toInt with
    | 0 => KindResult.codec.arm .inner inner?
    | -1 => .only .badAuth
    | -2 => .only .noAccount
    | -3 => .only .notSupported
    | -4 => .only .tooManySubentries
    | -5 => .only .exceededWorkLimit
    | -6 => .only .tooManySponsoring
    | _ => .unknown "OperationResultCode" t

/-- One result for each operation. -/
def listCodec : Codec (List OperationResult) := Codec.array "results" unbounded codec

end OperationResult

/-- The result of a transaction whose fee another one paid. -/
inductive InnerResult where
  | success (results : List OperationResult)
  | failed (results : List OperationResult)
  | other (code : Int32)
deriving DecidableEq

namespace InnerResult

/-- Of other outcomes than these two only the code is kept. -/
def code : InnerResult → Int32
  | .success _ => 0
  | .failed _ => -1
  | .other code => code

/-- The results of the inner transaction's operations, if it was applied. -/
def results : InnerResult → List OperationResult
  | .success results | .failed results => results
  | .other _ => []

/-- An inner result with its number; it cannot be that of a fee bump again. -/
def codec : Codec InnerResult :=
  Codec.tagged code fun t =>
    match t.toInt with
    | 0 => OperationResult.listCodec.arm .success fun
      | .success results => some results
      | _ => none
    | -1 => OperationResult.listCodec.arm .failed fun
      | .failed results => some results
      | _ => none
    | 1 => .refuse (.invalid "nested fee bump result")
    | -13 => .refuse (.invalid "nested fee bump result")
    | _ => .only (.other t)

end InnerResult

/-- The result of the transaction inside a fee bump. -/
structure InnerResultPair where
  hash : Hash
  feeCharged : Int64
  result : InnerResult
deriving DecidableEq

/-- The hash of the inner transaction, the fee it was charged and how it went. -/
def InnerResultPair.codec : Codec InnerResultPair :=
  ((Codec.hash.pair <| Codec.int64.pair InnerResult.codec).before
    (Codec.emptyExt "InnerTransactionResultExt")).imap
    (fun (hash, feeCharged, result) => ⟨hash, feeCharged, result⟩)
    fun p => (p.hash, p.feeCharged, p.result)

/-- How a transaction went. -/
inductive TransactionVerdict where
  | feeBumpSuccess (inner : InnerResultPair)
  | feeBumpFailed (inner : InnerResultPair)
  | success (results : List OperationResult)
  | failed (results : List OperationResult)
  | other (code : Int32)
deriving DecidableEq

namespace TransactionVerdict

/-- A fee bump has codes of its own for both outcomes of the inner transaction. -/
def code : TransactionVerdict → Int32
  | .feeBumpSuccess _ => 1
  | .feeBumpFailed _ => -13
  | .success _ => 0
  | .failed _ => -1
  | .other code => code

/-- Outcomes without operations carry nothing but their code. -/
def codec : Codec TransactionVerdict :=
  Codec.tagged code fun t =>
    match t.toInt with
    | 1 => InnerResultPair.codec.arm .feeBumpSuccess fun
      | .feeBumpSuccess inner => some inner
      | _ => none
    | -13 => InnerResultPair.codec.arm .feeBumpFailed fun
      | .feeBumpFailed inner => some inner
      | _ => none
    | 0 => OperationResult.listCodec.arm .success fun
      | .success results => some results
      | _ => none
    | -1 => OperationResult.listCodec.arm .failed fun
      | .failed results => some results
      | _ => none
    | _ => .only (.other t)

end TransactionVerdict

/-- The fee that was charged and how the transaction went. -/
structure TransactionResult where
  feeCharged : Int64
  verdict : TransactionVerdict
deriving DecidableEq

namespace TransactionResult

/-- The fee, then the outcome. -/
def codec : Codec TransactionResult :=
  ((Codec.int64.pair TransactionVerdict.codec).before (Codec.emptyExt "TransactionResultExt")).imap
    (fun (feeCharged, verdict) => ⟨feeCharged, verdict⟩) fun r => (r.feeCharged, r.verdict)

/-- The code of the outcome. -/
def code (r : TransactionResult) : Int32 := r.verdict.code

/-- A fee bump succeeds with its inner transaction. -/
def isSuccess (r : TransactionResult) : Bool :=
  match r.verdict with
  | .success _ | .feeBumpSuccess _ => true
  | _ => false

/-- The results of the operations that were applied, those of the inner transaction of a fee
    bump. -/
def operationResults (r : TransactionResult) : List OperationResult :=
  match r.verdict with
  | .success results | .failed results => results
  | .feeBumpSuccess inner | .feeBumpFailed inner => inner.result.results
  | .other _ => []

end TransactionResult

/-- A result under the hash of its transaction. -/
structure ResultPair where
  hash : Hash
  result : TransactionResult
deriving DecidableEq

/-- The hash, then the result. -/
def ResultPair.codec : Codec ResultPair :=
  (Codec.hash.pair TransactionResult.codec).imap (fun (hash, result) => ⟨hash, result⟩)
    fun p => (p.hash, p.result)

end LedgerSearch
