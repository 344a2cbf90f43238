import LedgerSearch.Record.Asset

/-
  The fourteen kinds of operation a transaction is made of.
-/

namespace LedgerSearch

open Wire

/-- A payment through other assets. One of the two amounts is fixed, the other a bound: what is sent
    at most for a fixed amount received, or what is received at least for a fixed amount sent. -/
structure PathPayment where
  sendAsset : Asset
  sendAmount : Int64
  destination : MuxedAccount
  receiveAsset : Asset
  receiveAmount : Int64
  path : List Asset
deriving DecidableEq

/-- A path has at most five assets. -/
def PathPayment.codec : Codec PathPayment :=
  (Asset.codec.pair <| Codec.int64.pair <| MuxedAccount.codec.pair <| Asset.codec.pair <|
    Codec.int64.pair (Codec.array "path" 5 Asset.codec)).imap
    (fun (sendAsset, sendAmount, destination, receiveAsset, receiveAmount, path) =>
      ⟨sendAsset, sendAmount, destination, receiveAsset, receiveAmount, path⟩)
    fun p => (p.sendAsset, p.sendAmount, p.destination, p.receiveAsset, p.receiveAmount, p.path)

/-- An order to trade one asset for another. -/
structure OfferTerms where
  selling : Asset
  buying : Asset
  amount : Int64
  price : Price
deriving DecidableEq

/-- What is sold, what is bought, how much of it and at what price. -/
def OfferTerms.codec : Codec OfferTerms :=
  (Asset.codec.pair <| Asset.codec.pair <| Codec.int64.pair Price.codec).imap
    (fun (selling, buying, amount, price) => ⟨selling, buying, amount, price⟩)
    fun o => (o.selling, o.buying, o.amount, o.price)

/-- What to change about an account; absent fields stay as they are. -/
structure AccountOptions where
  inflationDest : Option AccountId
  clearFlags : Option UInt32
  setFlags : Option UInt32
  masterWeight : Option UInt32
  lowThreshold : Option UInt32
  medThreshold : Option UInt32
  highThreshold : Option UInt32
  homeDomain : Option Bytes
  signer : Option Signer
deriving DecidableEq

/-- Each option is there or not; the home domain has at most 32 bytes. -/
def AccountOptions.codec : Codec AccountOptions :=
  ((Codec.option AccountId.codec).pair <| (Codec.option Codec.uint32).pair <|
    (Codec.option Codec.uint32).pair <| (Codec.option Codec.uint32).pair <|
    (Codec.option Codec.uint32).pair <| (Codec.option Codec.uint32).pair <|
    (Codec.option Codec.uint32).pair <| (Codec.option (Codec.bytes "string" 32)).pair
    (Codec.option Signer.codec)).imap
    (fun (inflationDest, clearFlags, setFlags, masterWeight, lowThreshold, medThreshold,
        highThreshold, homeDomain, signer) =>
      ⟨inflationDest, clearFlags, setFlags, masterWeight, lowThreshold, medThreshold,
        highThreshold, homeDomain, signer⟩)
    fun o => (o.inflationDest, o.clearFlags, o.setFlags, o.masterWeight, o.lowThreshold,
      o.medThreshold, o.highThreshold, o.homeDomain, o.signer)

/-- What an operation does, by its kind. -/
inductive OperationBody where
  | createAccount (destination : AccountId) (startingBalance : Int64)
  | payment (destination : MuxedAccount) (asset : Asset) (amount : Int64)
  | pathPaymentStrictReceive (p : PathPayment)
  | manageSellOffer (terms : OfferTerms) (offerId : Int64)
  | createPassiveSellOffer (terms : OfferTerms)
  | setOptions (o : AccountOptions)
  | changeTrust (line : Asset) (limit : Int64)
  | allowTrust (trustor : AccountId) (code : AssetCode) (authorize : UInt32)
  | accountMerge (destination : MuxedAccount)
  | inflation
  | manageData (name : Bytes) (value : Option Bytes)
  | bumpSequence (bumpTo : Int64)
  | manageBuyOffer (terms : OfferTerms) (offerId : Int64)
  | pathPaymentStrictSend (p : PathPayment)
deriving DecidableEq

/-- The kind of an operation. -/
inductive OperationKind where
  | createAccount
  | payment
  | pathPaymentStrictReceive
  | manageSellOffer
  | createPassiveSellOffer
  | setOptions
  | changeTrust
  | allowTrust
  | accountMerge
  | inflation
  | manageData
  | bumpSequence
  | manageBuyOffer
  | pathPaymentStrictSend
deriving DecidableEq

namespace OperationKind

/-- The name of the kind in documents. -/
def name : OperationKind → String
  | .createAccount => "create_account"
  | .payment => "payment"
  | .pathPaymentStrictReceive => "path_payment_strict_receive"
  | .manageSellOffer => "manage_sell_offer"
  | .createPassiveSellOffer => "create_passive_sell_offer"
  | .setOptions => "set_options"
  | .changeTrust => "change_trust"
  | .allowTrust => "allow_trust"
  | .accountMerge => "account_merge"
  | .inflation => "inflation"
  | .manageData => "manage_data"
  | .bumpSequence => "bump_sequence"
  | .manageBuyOffer => "manage_buy_offer"
  | .pathPaymentStrictSend => "path_payment_strict_send"

/-- The number of the kind in records. -/
def tag : OperationKind → Int32
  | .createAccount => 0
  | .payment => 1
  | .pathPaymentStrictReceive => 2
  | .manageSellOffer => 3
  | .createPassiveSellOffer => 4
  | .setOptions => 5
  | .changeTrust => 6
  | .allowTrust => 7
  | .accountMerge => 8
  | .inflation => 9
  | .manageData => 10
  | .bumpSequence => 11
  | .manageBuyOffer => 12
  | .pathPaymentStrictSend => 13

/-- Whether a successful operation of this kind can cross offers. -/
def crossesOffers : OperationKind → Bool
  | .pathPaymentStrictReceive | .pathPaymentStrictSend | .manageSellOffer
  | .createPassiveSellOffer | .manageBuyOffer => true
  | _ => false

end OperationKind

namespace OperationBody

/-- The kind of a body, its fields left out. -/
def kind : OperationBody → OperationKind
  | .createAccount .. => .createAccount
  | .payment .. => .payment
  | .pathPaymentStrictReceive _ => .pathPaymentStrictReceive
  | .manageSellOffer .. => .manageSellOffer
  | .createPassiveSellOffer _ => .createPassiveSellOffer
  | .setOptions _ => .setOptions
  | .changeTrust .. => .changeTrust
  | .allowTrust .. => .allowTrust
  | .accountMerge _ => .accountMerge
  | .inflation => .inflation
  | .manageData .. => .manageData
  | .bumpSequence _ => .bumpSequence
  | .manageBuyOffer .. => .manageBuyOffer
  | .pathPaymentStrictSend _ => .pathPaymentStrictSend

/-- The number of the kind, then the fields of that kind. -/
def codec : Codec OperationBody :=
  Codec.tagged (fun b => b.kind.tag) fun t =>
    match t.toInt with
    | 0 => (AccountId.codec.pair Codec.int64).arm (fun (d, n) => .createAccount d n) fun
      | .createAccount d n => some (d, n)
      | _ => none
    | 1 => (MuxedAccount.codec.pair <| Asset.codec.pair Codec.int64).arm
      (fun (d, a, n) => .payment d a n) fun
      | .payment d a n => some (d, a, n)
      | _ => none
    | 2 => PathPayment.codec.arm .pathPaymentStrictReceive fun
      | .pathPaymentStrictReceive p => some p
      | _ => none
    | 3 => (OfferTerms.codec.pair Codec.int64).arm (fun (o, n) => .manageSellOffer o n) fun
      | .manageSellOffer o n => some (o, n)
      | _ => none
    | 4 => OfferTerms.codec.arm .createPassiveSellOffer fun
      | .createPassiveSellOffer o => some o
      | _ => none
    | 5 => AccountOptions.codec.arm .setOptions fun
      | .setOptions o => some o
      | _ => none
    | 6 => (Asset.codec.pair Codec.int64).arm (fun (a, n) => .changeTrust a n) fun
      | .changeTrust a n => some (a, n)
      | _ => none
    | 7 => (AccountId.codec.pair <| AssetCode.codec.pair Codec.uint32).arm
      (fun (a, c, n) => .allowTrust a c n) fun
      | .allowTrust a c n => some (a, c, n)
      | _ => none
    | 8 => MuxedAccount.codec.arm .accountMerge fun
      | .accountMerge d => some d
      | _ => none
    | 9 => .only .inflation
    | 10 => ((Codec.bytes "DataName" 64).pair (Codec.option (Codec.bytes "string" 64))).arm
      (fun (name, value) => .manageData name value) fun
      | .manageData name value => some (name, value)
      | _ => none
    | 11 => Codec.int64.arm .bumpSequence fun
      | .bumpSequence n => some n
      | _ => none
    | 12 => (OfferTerms.codec.pair Codec.int64).arm (fun (o, n) => .manageBuyOffer o n) fun
      | .manageBuyOffer o n => some (o, n)
      | _ => none
    | 13 => PathPayment.codec.arm .pathPaymentStrictSend fun
      | .pathPaymentStrictSend p => some p
      | _ => none
    | _ => .unknown "OperationType" t

end OperationBody

/-- An operation, from its own source account or that of its transaction. -/
structure Operation where
  source : Option MuxedAccount
  body : OperationBody
deriving DecidableEq

/-- An operation may name a source account of its own. -/
def Operation.codec : Codec Operation :=
  ((Codec.option MuxedAccount.codec).pair OperationBody.codec).imap
    (fun (source, body) => ⟨source, body⟩) fun o => (o.source, o.body)

end LedgerSearch
