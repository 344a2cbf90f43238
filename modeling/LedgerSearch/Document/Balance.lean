import LedgerSearch.Document.Value
import LedgerSearch.Record.Entry
import LedgerSearch.Token

/-
  Balance documents: one for each record of a change log that moves a balance. Each carries the
  difference to the nearest earlier record of the same account and asset.
-/

namespace LedgerSearch

/-- Which change log a balance change was read from. -/
inductive BalanceSource where
  | fee
  | operation
deriving DecidableEq

/-- A change by an operation is named for the metadata it is found in. -/
def BalanceSource.text : BalanceSource → String
  | .fee => "fee"
  | .operation => "meta"

/-- An account's holding of an asset. -/
structure Holding where
  account : AccountId
  asset : Asset
deriving DecidableEq

/-- The balance an entry carries, if it is of a kind that has one. -/
def LedgerEntry.balance? (e : LedgerEntry) : Option (Holding × Int64) :=
  match e.data with
  | .account a => some (⟨a.account, .native⟩, a.balance)
  | .trustLine t => some (⟨t.account, t.asset⟩, t.balance)
  | .offer _ | .data _ => none

/-- A balance that moved, with the move. -/
structure BalanceDoc where
  token : Token
  holding : Holding
  /-- The balance after the change. -/
  balance : Int64
  diff : Int64
  source : BalanceSource
  closeTime : CloseTime
deriving DecidableEq

namespace BalanceDoc

/-- What the documents of one change log share. -/
structure Context where
  base : Token
  source : BalanceSource
  closeTime : CloseTime

/-- The change at a place among the changes of its source. -/
def numbered (c : Context) (index : UInt8) (h : Holding) (balance diff : Int64) : BalanceDoc :=
  ⟨(Token.ofIndex index).merge c.base, h, balance, diff, c.source, c.closeTime⟩

/-- The documents of the rest of a log, after the records in `seen`, newest first, and after effect
    index `last`. -/
def ofChangesAfter (c : Context) (seen : List (Holding × Int64)) (last : UInt8) :
    List EntryChange → Outcome (List BalanceDoc)
  | [] => pure []
  | .removed _ :: rest => ofChangesAfter c seen last rest
  | .state e :: rest =>
    match e.balance? with
    | none => ofChangesAfter c seen last rest
    | some (h, balance) => ofChangesAfter c ((h, balance) :: seen) last rest
  | .created e :: rest =>
    match e.balance? with
    | none => ofChangesAfter c seen last rest
    | some (h, balance) => do
      let index ← nextEffectIndex last
      let docs ← ofChangesAfter c ((h, balance) :: seen) index rest
      pure (numbered c index h balance balance :: docs)
  | .updated e :: rest =>
    match e.balance? with
    | none => ofChangesAfter c seen last rest
    | some (h, balance) => do
      let diff ← checkedSubInt64 balance ((seen.lookup h).getD 0)
      -- a balance that stays as it was has no document
      if diff = 0 then ofChangesAfter c ((h, balance) :: seen) last rest
      else
        let index ← nextEffectIndex last
        let docs ← ofChangesAfter c ((h, balance) :: seen) index rest
        pure (numbered c index h balance diff :: docs)

/-- The documents of a change log. -/
def ofChanges (c : Context) (changes : List EntryChange) : Outcome (List BalanceDoc) :=
  ofChangesAfter c [] 0 changes

def toJson (d : BalanceDoc) : Json :=
  .object [
    ("paging_token", d.token.toJson),
    ("account_id", .account d.holding.account),
    ("balance", .amount d.balance),
    ("diff", .amount d.diff),
    ("asset", .asset d.holding.asset),
    ("source", .string d.source.text),
    ("created_at", .time d.closeTime)]

end BalanceDoc

end LedgerSearch
