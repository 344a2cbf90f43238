import LedgerSearch.Document.Operation
import LedgerSearch.Record.Entry

/-
  Offer events: one for each offer entry that a transaction's operations create or update.
-/

namespace LedgerSearch

/-- What a change did to an offer; removals are not told. -/
inductive OfferAction where
  | create
  | update
deriving DecidableEq

/-- How an action is written in its document. -/
def OfferAction.text : OfferAction → String
  | .create => "create"
  | .update => "update"

/-- An offer that was made or changed. -/
structure OfferEvent where
  token : Token
  seq : UInt32
  closeTime : CloseTime
  action : OfferAction
  offer : OfferEntry
deriving DecidableEq

/-- The action and offer of a change, if it leaves an offer on the book. -/
def EntryChange.offer? : EntryChange → Option (OfferAction × OfferEntry)
  | .created ⟨_, .offer o, _⟩ => some (.create, o)
  | .updated ⟨_, .offer o, _⟩ => some (.update, o)
  | _ => none

namespace OfferEvent

/-- What the events of one transaction share. -/
structure Context where
  base : Token
  seq : UInt32
  closeTime : CloseTime

/-- The events of the rest of a log, after effect index `last`. -/
def ofChangesAfter (c : Context) (last : UInt8) : List EntryChange → Outcome (List OfferEvent)
  | [] => pure []
  | change :: rest =>
    match change.offer? with
    | none => ofChangesAfter c last rest
    | some (action, offer) => do
      let index ← nextEffectIndex last
      let events ← ofChangesAfter c index rest
      pure (⟨(Token.ofIndex index).merge c.base, c.seq, c.closeTime, action, offer⟩ :: events)

/-- The events of a transaction, numbered through all its operations. -/
def ofOperations (c : Context) (operations : List (List EntryChange)) :
    Outcome (List OfferEvent) :=
  ofChangesAfter c 0 operations.flatten

/-- The event as it is stored, the fields of the offer behind its own. -/
def toJson (e : OfferEvent) : Json :=
  .object <| [
    ("paging_token", e.token.toJson),
    ("seq", .uint32 e.seq),
    ("created_at", .time e.closeTime),
    ("type", .string "offer"),
    ("action", .string e.action.text)] ++ Json.offerFields e.offer

end OfferEvent

end LedgerSearch
