import LedgerSearch.Document.Operation

/-
  Trades: each offer an operation crosses gives two documents, one as its owner sees it and one as
  the taker does.
-/

namespace LedgerSearch

/-- An offer that was taken, seen from one of its two sides. -/
structure TradeDoc where
  token : Token
  offerId : Int64
  seller : AccountId
  buyer : AccountId
  soldAmount : Int64
  soldAsset : Asset
  boughtAmount : Int64
  boughtAsset : Asset
  closeTime : CloseTime
deriving DecidableEq

namespace TradeDoc

/-- The offer's owner sells to the operation's source. -/
def ofOwner (op : OperationDoc) (token : Token) (c : ClaimAtom) : TradeDoc :=
  ⟨token, c.offerId, c.seller, op.source, c.soldAmount, c.soldAsset, c.boughtAmount,
    c.boughtAsset, op.closeTime⟩

/-- The operation's source sells to the offer's owner. -/
def ofTaker (op : OperationDoc) (token : Token) (c : ClaimAtom) : TradeDoc :=
  ⟨token, c.offerId, op.source, c.seller, c.boughtAmount, c.boughtAsset, c.soldAmount,
    c.soldAsset, op.closeTime⟩

/-- The pairs of the claims, after effect index `last`. -/
def ofClaimsAfter (op : OperationDoc) (base : Token) (last : UInt8) :
    List ClaimAtom → Outcome (List TradeDoc)
  | [] => pure []
  | c :: rest => do
    let first ← nextEffectIndex last
    let second ← nextEffectIndex first
    let docs ← ofClaimsAfter op base second rest
    pure (ofOwner op ((Token.ofIndex first).merge base) c ::
      ofTaker op ((Token.ofIndex second).merge base) c :: docs)

/-- The trades of an operation: none unless it succeeded and is of a kind that crosses offers. -/
def ofResult (op : OperationDoc) (result : OperationResult) : Outcome (List TradeDoc) :=
  if result.isSuccess && op.kind.crossesOffers then
    match result.inner? with
    | some r => ofClaimsAfter op ((Token.ofGroup .trade).merge op.token) 0 r.claimed
    | none => pure []
  else pure []

/-- The document as it is stored; the price is worked out from the two amounts. -/
def toJson (d : TradeDoc) : Json :=
  .object [
    ("paging_token", d.token.toJson),
    ("offer_id", .int64 d.offerId),
    ("seller_id", .account d.seller),
    ("buyer_id", .account d.buyer),
    ("sold_amount", .amount d.soldAmount),
    ("sold_asset", .asset d.soldAsset),
    ("bought_amount", .amount d.boughtAmount),
    ("bought_asset", .asset d.boughtAsset),
    ("price", .string (tradePrice d.soldAmount d.boughtAmount)),
    ("created_at", .time d.closeTime)]

end TradeDoc

end LedgerSearch
