import LedgerSearch.Document.Transaction

/-
  The document of an operation: what it asked for, the transaction it was part of, and what its
  result says.
-/

namespace LedgerSearch

/-- What the result of an operation adds to its document. -/
structure OperationOutcome where
  succeeded : Bool := false
  resultCode : Option Int32 := none
  innerCode : Option Int32 := none
  /-- The offers that were crossed. -/
  claimed : Option (List ClaimAtom) := none
  effect : Option OfferEffect := none
  last : Option SimplePayment := none
  noIssuer : Option Asset := none
  mergedBalance : Option Int64 := none
  payouts : Option (List Payout) := none
deriving DecidableEq

namespace OperationOutcome

/-- A payment that lacked an issuer tells the asset instead of the offers taken. -/
def ofPathPayment (o : OperationOutcome) : PathPaymentResult → OperationOutcome
  | .success offers last => { o with claimed := some offers, last := some last }
  | .noIssuer asset => { o with noIssuer := some asset }
  | .failure _ => o

/-- A failed offer tells nothing but its codes. -/
def ofManageOffer (o : OperationOutcome) : ManageOfferResult → OperationOutcome
  | .success claimed effect => { o with claimed := some claimed, effect := some effect }
  | .failure _ => o

/-- The parts that belong to the kind of the result. -/
def ofKind (o : OperationOutcome) : KindResult → OperationOutcome
  | .pathPaymentStrictReceive r | .pathPaymentStrictSend r => o.ofPathPayment r
  | .manageSellOffer r | .createPassiveSellOffer r | .manageBuyOffer r => o.ofManageOffer r
  | .accountMerge (.success balance) => { o with mergedBalance := some balance }
  | .inflation (.success payouts) => { o with payouts := some payouts }
  | _ => o

/-- What the documents tell of a result: both codes and what its kind adds. -/
def ofResult (r : OperationResult) : OperationOutcome :=
  let o : OperationOutcome := { succeeded := r.isSuccess, resultCode := some r.code }
  match r.inner? with
  | some k => { o with innerCode := some k.code }.ofKind k
  | none => o

end OperationOutcome

/-- What is stored of an operation: its place, its transaction, its body and how it went. -/
structure OperationDoc where
  txId : Hash
  txOrder : UInt8
  seq : UInt32
  closeTime : CloseTime
  txSource : AccountId
  memo : Memo
  /-- The one-based place of the operation in its transaction. -/
  order : UInt8
  /-- The operation's own source account, or that of its transaction. -/
  source : AccountId
  body : OperationBody
  outcome : OperationOutcome
deriving DecidableEq

namespace Json

/-- The assets of a path in order. -/
def assets (as : List Asset) : Json := .array (as.map asset)

/-- The account that is paid, and the number muxed into its address if there is one. -/
def destinationFields (m : MuxedAccount) : List (String × Json) :=
  ("destination_account_id", account m.account) :: field? "destination_muxed_id" (m.id.map uint64)

/-- The fields of an order; `offerId` stands between its amount and its assets. -/
def termsFields (o : OfferTerms) (offerId : Option Int64) : List (String × Json) :=
  ("amount", amount o.amount) :: field? "offer_id" (offerId.map int64) ++ [
    ("selling_asset", asset o.selling),
    ("buying_asset", asset o.buying),
    ("price", quotient o.price),
    ("price_n_d", ratio o.price)]

/-- The signer that an operation sets. -/
def signerFields (s : Signer) : List (String × Json) := [
  ("signer_key", .string s.key.text),
  ("signer_type", .string s.key.typeName),
  ("signer_weight", uint32 s.weight)]

/-- Only the options that are set are told. -/
def optionsFields (o : AccountOptions) : List (String × Json) :=
  field? "inflation_dest" (o.inflationDest.map account) ++
  field? "set_flags" (o.setFlags.map uint32) ++
  field? "clear_flags" (o.clearFlags.map uint32) ++
  field? "master_key_weight" (o.masterWeight.map uint32) ++
  field? "low_threshold" (o.lowThreshold.map uint32) ++
  field? "medium_threshold" (o.medThreshold.map uint32) ++
  field? "high_threshold" (o.highThreshold.map uint32) ++
  field? "home_domain" (o.homeDomain.map fun bs => .string (Text.Utf8.decodeLossy bs)) ++
  (match o.signer with
    | some s => signerFields s
    | none => [])

/-- An asset that its issuer names by the code alone. -/
def ownAsset (code : AssetCode) (issuer : AccountId) : Json :=
  .object [
    ("type", .string code.typeName),
    ("code", .string code.text),
    ("issuer", account issuer),
    ("key", .string (code.text ++ "-" ++ issuer.text))]

/-- The fields of an operation by its kind. Trust runs from the one who trusts, the trustor, to the
    one who issues; an allow-trust names its asset by the code, and comes from its issuer. -/
def bodyFields (source : AccountId) : OperationBody → List (String × Json)
  | .createAccount destination balance => [
    ("destination_account_id", account destination),
    ("starting_balance", amount balance)]
  | .payment destination paid n =>
    destinationFields destination ++ [("amount", amount n), ("asset", asset paid)]
  | .pathPaymentStrictReceive p =>
    destinationFields p.destination ++ [
      ("amount", amount p.receiveAmount),
      ("asset", asset p.receiveAsset),
      ("source_asset", asset p.sendAsset),
      ("source_max", amount p.sendAmount),
      ("path", assets p.path)]
  | .pathPaymentStrictSend p =>
    destinationFields p.destination ++ [
      ("asset", asset p.receiveAsset),
      ("source_amount", amount p.sendAmount),
      ("source_asset", asset p.sendAsset),
      ("destination_min", amount p.receiveAmount),
      ("path", assets p.path)]
  | .manageSellOffer terms offerId => termsFields terms (some offerId)
  | .manageBuyOffer terms offerId => termsFields terms (some offerId)
  | .createPassiveSellOffer terms => termsFields terms none ++ [("passive", .bool true)]
  | .setOptions o => optionsFields o
  | .changeTrust line limit =>
    ("asset", asset line) :: ("trustor", account source) ::
      field? "trustee" (line.issuer?.map account) ++ [("limit", amount limit)]
  | .allowTrust trustor code authorize => [
    ("asset", ownAsset code source),
    ("trustor", account trustor),
    ("trustee", account source),
    ("authorize", uint32 authorize)]
  | .accountMerge destination => destinationFields destination
  | .inflation => []
  | .manageData name value =>
    ("data_name", .string (Text.Utf8.decodeLossy name)) ::
      field? "data_value" (value.map fun bs => .string (Text.Base64.encode bs))
  | .bumpSequence bumpTo => [("bump_to", int64 bumpTo)]

/-- An offer that the operation took. -/
def claim (c : ClaimAtom) : Json :=
  .object [
    ("seller_id", account c.seller),
    ("offer_id", int64 c.offerId),
    ("asset_sold", asset c.soldAsset),
    ("amount_sold", amount c.soldAmount),
    ("asset_bought", asset c.boughtAsset),
    ("amount_bought", amount c.boughtAmount)]

/-- The fields of an offer on the book. -/
def offerFields (e : OfferEntry) : List (String × Json) := [
  ("seller_id", account e.seller),
  ("offer_id", int64 e.offerId),
  ("selling", asset e.terms.selling),
  ("buying", asset e.terms.buying),
  ("amount", amount e.terms.amount),
  ("price_n_d", ratio e.terms.price),
  ("price", quotient e.terms.price)]

/-- What became of the offer itself; a deleted one leaves nothing to tell. -/
def effectFields : OfferEffect → List (String × Json)
  | .created offer =>
    [("result_offer_effect", .string "created"), ("result_offer", .object (offerFields offer))]
  | .updated offer =>
    [("result_offer_effect", .string "updated"), ("result_offer", .object (offerFields offer))]
  | .deleted => [("result_offer_effect", .string "deleted")]

/-- The payment at the end of a path. -/
def lastFields (p : SimplePayment) : List (String × Json) := [
  ("result_last_destination", account p.destination),
  ("result_last_amount", amount p.amount),
  ("result_last_asset", asset p.asset)]

/-- One winner of the inflation. -/
def payout (p : Payout) : Json :=
  .object [("account_id", account p.destination), ("amount", amount p.amount)]

/-- How the operation went; what its kind does not have is left out. -/
def outcomeFields (o : OperationOutcome) : List (String × Json) :=
  ("succeeded", .bool o.succeeded) ::
  field? "result_code" (o.resultCode.map int32) ++
  field? "inner_result_code" (o.innerCode.map int32) ++
  field? "result_offers" (o.claimed.map fun cs => .array (cs.map claim)) ++
  (match o.effect with
    | some e => effectFields e
    | none => []) ++
  (match o.last with
    | some p => lastFields p
    | none => []) ++
  field? "result_no_issuer" (o.noIssuer.map asset) ++
  field? "result_source_account_balance" (o.mergedBalance.map amount) ++
  field? "result_inflation_payouts" (o.payouts.map fun ps => .array (ps.map payout))

end Json

namespace OperationDoc

/-- The place of the operation in its ledger. -/
def token (d : OperationDoc) : Token := .ofOperation d.seq d.txOrder d.order

/-- The kind of the body. -/
def kind (d : OperationDoc) : OperationKind := d.body.kind

/-- The document of the operation at a zero-based `position` of its transaction. -/
def ofOperation (tx : TransactionDoc) (op : Operation) (result : Option OperationResult)
    (position : Nat) : Outcome OperationDoc := do
  let order ← orderOfPosition "operation_order" position
  pure {
    txId := tx.id
    txOrder := tx.order
    seq := tx.seq
    closeTime := tx.closeTime
    txSource := tx.account
    memo := tx.memo
    order
    source := (op.source.map (·.account)).getD tx.account
    body := op.body
    outcome := (result.map OperationOutcome.ofResult).getD {} }

/-- The document as it is stored: its place, the fields of its kind, then how it went. -/
def toJson (d : OperationDoc) : Json :=
  .object <| [
    ("tx_id", .hash d.txId),
    ("tx_index", .nat d.txOrder.toNat),
    ("seq", .uint32 d.seq),
    ("close_time", .time d.closeTime),
    ("tx_source_account", .account d.txSource)] ++
    Json.field? "memo" d.memo.toJson? ++ [
    ("paging_token", d.token.toJson),
    ("index", .nat d.order.toNat),
    ("type", .string d.kind.name),
    ("source_account", .account d.source)] ++
    Json.bodyFields d.source d.body ++ Json.outcomeFields d.outcome

end OperationDoc

end LedgerSearch
