import LedgerSearch.Record.Operation

/-
  Offers on the book, and what became of them when a transaction crossed them.
-/

namespace LedgerSearch

open Wire

/-- An offer on the book. -/
structure OfferEntry where
  seller : AccountId
  offerId : Int64
  terms : OfferTerms
  flags : UInt32
deriving DecidableEq

/-- The seller and the number of the offer, its terms and its flags. -/
def OfferEntry.codec : Codec OfferEntry :=
  ((AccountId.codec.pair <| Codec.int64.pair <| OfferTerms.codec.pair Codec.uint32).before
    (Codec.emptyExt "OfferEntryExt")).imap
    (fun (seller, offerId, terms, flags) => ⟨seller, offerId, terms, flags⟩)
    fun e => (e.seller, e.offerId, e.terms, e.flags)

/-- One offer crossed: what its owner sold and what the owner got for it. -/
structure ClaimAtom where
  seller : AccountId
  offerId : Int64
  soldAsset : Asset
  soldAmount : Int64
  boughtAsset : Asset
  boughtAmount : Int64
deriving DecidableEq

/-- The seller and the number of the offer, then what it sold and what it bought. -/
def ClaimAtom.codec : Codec ClaimAtom :=
  (AccountId.codec.pair <| Codec.int64.pair <| Asset.codec.pair <| Codec.int64.pair <|
    Asset.codec.pair Codec.int64).imap
    (fun (seller, offerId, soldAsset, soldAmount, boughtAsset, boughtAmount) =>
      ⟨seller, offerId, soldAsset, soldAmount, boughtAsset, boughtAmount⟩)
    fun c => (c.seller, c.offerId, c.soldAsset, c.soldAmount, c.boughtAsset, c.boughtAmount)

end LedgerSearch
