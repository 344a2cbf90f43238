import LedgerSearch.Record.Offer

/-
  Ledger entries and the changes transactions make to them. Sponsorship counters of accounts are
  read over.
-/

namespace LedgerSearch

open Wire

/-- Amounts promised to offers. -/
structure Liabilities where
  buying : Int64
  selling : Int64
deriving DecidableEq

/-- What open offers would buy, then what they would sell. -/
def Liabilities.read : Reader Liabilities := do
  let buying ← Reader.int64
  let selling ← Reader.int64
  pure ⟨buying, selling⟩

/-- The entry of an account. -/
structure AccountEntry where
  account : AccountId
  balance : Int64
  seqNum : Int64
  numSubEntries : UInt32
  inflationDest : Option AccountId
  flags : UInt32
  homeDomain : Bytes
  thresholds : Block 4
  signers : List Signer
  liabilities : Option Liabilities
deriving DecidableEq

namespace AccountEntry

/-- Counts of sponsored entries and the sponsors of signers, which are not kept. -/
def readSponsorship : Reader Unit := do
  let t ← Reader.int32
  match t.toInt with
  | 0 => pure ()
  | 2 =>
    let _ ← Reader.uint32
    let _ ← Reader.uint32
    let _ ← Reader.array "signerSponsoringIDs" 20 (Reader.option AccountId.codec.read)
    Reader.emptyExt "AccountEntryExtensionV2Ext"
  | _ => throw (.unknownDiscriminant "AccountEntryExtensionV1Ext" t)

/-- The extension with the liabilities may carry one of sponsorship. -/
def readLiabilities : Reader (Option Liabilities) := do
  let t ← Reader.int32
  match t.toInt with
  | 0 => pure none
  | 1 =>
    let liabilities ← Liabilities.read
    readSponsorship
    pure (some liabilities)
  | _ => throw (.unknownDiscriminant "AccountEntryExt" t)

/-- The fields of an account in the order of the record, the extensions last. -/
def read : Reader AccountEntry := do
  let account ← AccountId.codec.read
  let balance ← Reader.int64
  let seqNum ← Reader.int64
  let numSubEntries ← Reader.uint32
  let inflationDest ← Reader.option AccountId.codec.read
  let flags ← Reader.uint32
  let homeDomain ← Reader.bytes "string32" 32
  let thresholds ← Reader.block 4
  let signers ← Reader.array "signers" 20 Signer.codec.read
  let liabilities ← readLiabilities
  pure ⟨account, balance, seqNum, numSubEntries, inflationDest, flags, homeDomain, thresholds,
    signers, liabilities⟩

end AccountEntry

/-- What an account holds of an asset that is not native. -/
structure TrustLine where
  account : AccountId
  asset : Asset
  balance : Int64
  limit : Int64
  flags : UInt32
  liabilities : Option Liabilities
deriving DecidableEq

namespace TrustLine

/-- The extension of a trust line with the liabilities carries none of its own. -/
def readLiabilities : Reader (Option Liabilities) := do
  let t ← Reader.int32
  match t.toInt with
  | 0 => pure none
  | 1 =>
    let liabilities ← Liabilities.read
    Reader.emptyExt "TrustLineEntryV1Ext"
    pure (some liabilities)
  | _ => throw (.unknownDiscriminant "TrustLineEntryExt" t)

/-- The fields of a trust line in the order of the record, the extensions last. -/
def read : Reader TrustLine := do
  let account ← AccountId.codec.read
  let asset ← Asset.codec.read
  let balance ← Reader.int64
  let limit ← Reader.int64
  let flags ← Reader.uint32
  let liabilities ← readLiabilities
  pure ⟨account, asset, balance, limit, flags, liabilities⟩

end TrustLine

/-- A name and a value kept by an account. -/
structure DataEntry where
  account : AccountId
  name : Bytes
  value : Bytes
deriving DecidableEq

/-- Name and value have at most 64 bytes each. -/
def DataEntry.read : Reader DataEntry := do
  let account ← AccountId.codec.read
  let name ← Reader.bytes "DataName" 64
  let value ← Reader.bytes "DataValue" 64
  Reader.emptyExt "DataEntryExt"
  pure ⟨account, name, value⟩

/-- What an entry of the ledger holds, by its kind. -/
inductive EntryData where
  | account (e : AccountEntry)
  | trustLine (e : TrustLine)
  | offer (e : OfferEntry)
  | data (e : DataEntry)
deriving DecidableEq

/-- The kind, then its fields. -/
def EntryData.read : Reader EntryData := do
  let t ← Reader.int32
  match t.toInt with
  | 0 => return .account (← AccountEntry.read)
  | 1 => return .trustLine (← TrustLine.read)
  | 2 => return .offer (← OfferEntry.codec.read)
  | 3 => return .data (← DataEntry.read)
  | _ => throw (.unknownDiscriminant "LedgerEntryType" t)

/-- An entry of the ledger, with the ledger that last modified it. -/
structure LedgerEntry where
  lastModified : UInt32
  data : EntryData
  sponsor : Option AccountId
deriving DecidableEq

namespace LedgerEntry

/-- The extension of an entry tells its sponsor, if it has one. -/
def readSponsor : Reader (Option AccountId) := do
  let t ← Reader.int32
  match t.toInt with
  | 0 => pure none
  | 1 =>
    let sponsor ← Reader.option AccountId.codec.read
    Reader.emptyExt "LedgerEntryExtensionV1Ext"
    pure sponsor
  | _ => throw (.unknownDiscriminant "LedgerEntryExt" t)

/-- The entry stands between the ledger that modified it and its extension. -/
def read : Reader LedgerEntry := do
  let lastModified ← Reader.uint32
  let data ← EntryData.read
  let sponsor ← readSponsor
  pure ⟨lastModified, data, sponsor⟩

end LedgerEntry

/-- What names an entry that is gone. -/
inductive LedgerKey where
  | account (account : AccountId)
  | trustLine (account : AccountId) (asset : Asset)
  | offer (seller : AccountId) (offerId : Int64)
  | data (account : AccountId) (name : Bytes)
deriving DecidableEq

/-- The kind, then what names an entry of that kind. -/
def LedgerKey.read : Reader LedgerKey := do
  let t ← Reader.int32
  match t.toInt with
  | 0 => return .account (← AccountId.codec.read)
  | 1 =>
    let account ← AccountId.codec.read
    let asset ← Asset.codec.read
    pure (.trustLine account asset)
  | 2 =>
    let seller ← AccountId.codec.read
    let offerId ← Reader.int64
    pure (.offer seller offerId)
  | 3 =>
    let account ← AccountId.codec.read
    let name ← Reader.bytes "DataName" 64
    pure (.data account name)
  | _ => throw (.unknownDiscriminant "LedgerEntryType" t)

/-- One step of a change log. `state` restates an entry before it is changed. -/
inductive EntryChange where
  | created (e : LedgerEntry)
  | updated (e : LedgerEntry)
  | removed (k : LedgerKey)
  | state (e : LedgerEntry)
deriving DecidableEq

namespace EntryChange

/-- A removal carries the key of the entry, every other change the entry itself. -/
def read : Reader EntryChange := do
  let t ← Reader.int32
  match t.toInt with
  | 0 => return .created (← LedgerEntry.read)
  | 1 => return .updated (← LedgerEntry.read)
  | 2 => return .removed (← LedgerKey.read)
  | 3 => return .state (← LedgerEntry.read)
  | _ => throw (.unknownDiscriminant "LedgerEntryChangeType" t)

/-- Changes in the order they were made. -/
def readAll : Reader (List EntryChange) := Reader.array "LedgerEntryChanges" unbounded read

end EntryChange

/-- The changes a transaction made, one list for each of its operations, and around them. -/
inductive TransactionMeta where
  | v0 (operations : List (List EntryChange))
  | v1 (changes : List EntryChange) (operations : List (List EntryChange))
  | v2 (before : List EntryChange) (operations : List (List EntryChange))
    (after : List EntryChange)
deriving DecidableEq

namespace TransactionMeta

/-- The changes of each operation, without those of the transaction around them. -/
def operations : TransactionMeta → List (List EntryChange)
  | .v0 operations => operations
  | .v1 _ operations => operations
  | .v2 _ operations _ => operations

/-- One list of changes for each operation. -/
def readOperations : Reader (List (List EntryChange)) :=
  Reader.array "operations" unbounded EntryChange.readAll

/-- The later forms add changes made before and after the operations. -/
def read : Reader TransactionMeta := do
  let t ← Reader.int32
  match t.toInt with
  | 0 => return .v0 (← readOperations)
  | 1 =>
    let changes ← EntryChange.readAll
    let operations ← readOperations
    pure (.v1 changes operations)
  | 2 =>
    let before ← EntryChange.readAll
    let operations ← readOperations
    let after ← EntryChange.readAll
    pure (.v2 before operations after)
  | _ => throw (.unknownDiscriminant "TransactionMeta" t)

end TransactionMeta

end LedgerSearch
