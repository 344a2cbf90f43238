import Mathlib
import LedgerSearch.LedgerClose
import LedgerSearch.Proofs.Wire.Delimited

/-
  Every type of record is delimited: a record ends where its own bytes say
  (`RecordType.read_selfDelimiting`). The types are those of the format, from numbers to the results
  of a closed ledger, together with optional values and lists of any of them.
-/

namespace LedgerSearch

open Wire Wire.Reader Wire.Codec

/-! ## Accounts and assets -/

theorem isRecord_hash : IsRecord Codec.hash.read := isRecord_block (by decide)

theorem AccountId.isRecord : IsRecord AccountId.codec.read := by
  refine isRecord_tagged fun t => ?_
  split
  · exact (isRecord_imap (isRecord_block (by decide))).toDelimited
  · exact delimited_unknown _ _

theorem MuxedAccount.delimited_plain : Delimited MuxedAccount.plain.read :=
  delimited_arm (isRecord_block (by decide))

theorem MuxedAccount.isRecord : IsRecord MuxedAccount.codec.read := by
  refine isRecord_tagged fun t => ?_
  split
  · exact delimited_plain
  · exact delimited_arm (isRecord_pair isRecord_uint64 (isRecord_block (by decide)))
  · exact delimited_unknown _ _

theorem SignerKey.isRecord : IsRecord SignerKey.codec.read := by
  refine isRecord_tagged fun t => ?_
  split
  · exact delimited_arm (isRecord_block (by decide))
  · exact delimited_arm isRecord_hash
  · exact delimited_arm isRecord_hash
  · exact delimited_unknown _ _

theorem Signer.isRecord : IsRecord Signer.codec.read :=
  isRecord_imap (isRecord_pair SignerKey.isRecord isRecord_uint32)

theorem Signature.isRecord : IsRecord Signature.codec.read :=
  isRecord_imap (isRecord_pair (isRecord_block (by decide)) (isRecord_bytes _ _))

namespace AssetCode

theorem isRecord_arm4 : IsRecord arm4.read := (isRecord_block (by decide)).map _

theorem isRecord_arm12 : IsRecord arm12.read := (isRecord_block (by decide)).map _

theorem isRecord : IsRecord codec.read := by
  refine isRecord_tagged fun t => ?_
  split
  · exact isRecord_arm4.toDelimited
  · exact isRecord_arm12.toDelimited
  · exact delimited_unknown _ _

end AssetCode

theorem Asset.isRecord : IsRecord Asset.codec.read := by
  refine isRecord_tagged fun t => ?_
  split
  · exact delimited_only _
  · exact delimited_arm (isRecord_pair AssetCode.isRecord_arm4 AccountId.isRecord)
  · exact delimited_arm (isRecord_pair AssetCode.isRecord_arm12 AccountId.isRecord)
  · exact delimited_unknown _ _

theorem Price.isRecord : IsRecord Price.codec.read :=
  isRecord_imap (isRecord_pair isRecord_int32 isRecord_int32)

/-! ## Operations -/

theorem PathPayment.isRecord : IsRecord PathPayment.codec.read :=
  isRecord_imap (isRecord_pair Asset.isRecord <| isRecord_pair isRecord_int64 <|
    isRecord_pair MuxedAccount.isRecord <| isRecord_pair Asset.isRecord <|
    isRecord_pair isRecord_int64 (isRecord_array _ _ Asset.isRecord))

theorem OfferTerms.isRecord : IsRecord OfferTerms.codec.read :=
  isRecord_imap (isRecord_pair Asset.isRecord <| isRecord_pair Asset.isRecord <|
    isRecord_pair isRecord_int64 Price.isRecord)

theorem AccountOptions.isRecord : IsRecord AccountOptions.codec.read := by
  have hnumber : IsRecord (Codec.option Codec.uint32).read := isRecord_option isRecord_uint32
  exact isRecord_imap (isRecord_pair (isRecord_option AccountId.isRecord) <|
    isRecord_pair hnumber <| isRecord_pair hnumber <| isRecord_pair hnumber <|
    isRecord_pair hnumber <| isRecord_pair hnumber <| isRecord_pair hnumber <|
    isRecord_pair (isRecord_option (isRecord_bytes _ _)) (isRecord_option Signer.isRecord))

theorem OperationBody.isRecord : IsRecord OperationBody.codec.read := by
  have hoffer : IsRecord (OfferTerms.codec.pair Codec.int64).read :=
    isRecord_pair OfferTerms.isRecord isRecord_int64
  refine isRecord_tagged fun t => ?_
  split
  · exact delimited_arm (isRecord_pair AccountId.isRecord isRecord_int64)
  · exact delimited_arm (isRecord_pair MuxedAccount.isRecord <|
      isRecord_pair Asset.isRecord isRecord_int64)
  · exact delimited_arm PathPayment.isRecord
  · exact delimited_arm hoffer
  · exact delimited_arm OfferTerms.isRecord
  · exact delimited_arm AccountOptions.isRecord
  · exact delimited_arm (isRecord_pair Asset.isRecord isRecord_int64)
  · exact delimited_arm (isRecord_pair AccountId.isRecord <|
      isRecord_pair AssetCode.isRecord isRecord_uint32)
  · exact delimited_arm MuxedAccount.isRecord
  · exact delimited_only _
  · exact delimited_arm (isRecord_pair (isRecord_bytes _ _) (isRecord_option (isRecord_bytes _ _)))
  · exact delimited_arm isRecord_int64
  · exact delimited_arm hoffer
  · exact delimited_arm PathPayment.isRecord
  · exact delimited_unknown _ _

theorem Operation.isRecord : IsRecord Operation.codec.read :=
  isRecord_imap (isRecord_pair (isRecord_option MuxedAccount.isRecord) OperationBody.isRecord)

/-! ## Transactions -/

theorem Memo.isRecord : IsRecord Memo.codec.read := by
  refine isRecord_tagged fun t => ?_
  split
  · exact delimited_only _
  · exact delimited_arm (isRecord_bytes _ _)
  · exact delimited_arm isRecord_uint64
  · exact delimited_arm isRecord_hash
  · exact delimited_arm isRecord_hash
  · exact delimited_unknown _ _

theorem TimeBounds.isRecord : IsRecord TimeBounds.codec.read :=
  isRecord_imap (isRecord_pair isRecord_uint64 isRecord_uint64)

namespace Transaction

theorem isRecord_codecFrom {source : Codec MuxedAccount} (hsource : IsRecord source.read) :
    IsRecord (codecFrom source).read :=
  isRecord_imap (isRecord_beforeExt _ (isRecord_pair hsource <| isRecord_pair isRecord_uint32 <|
    isRecord_pair isRecord_int64 <| isRecord_pair (isRecord_option TimeBounds.isRecord) <|
    isRecord_pair Memo.isRecord (isRecord_array _ _ Operation.isRecord)))

theorem isRecord : IsRecord codec.read := isRecord_codecFrom MuxedAccount.isRecord

theorem isRecord_legacy : IsRecord legacyCodec.read :=
  isRecord_codecFrom ((isRecord_block (by decide)).map _)

end Transaction

theorem isRecord_signatures : IsRecord signaturesCodec.read := isRecord_array _ _ Signature.isRecord

theorem FeeBump.isRecord_inner : IsRecord FeeBump.innerCodec.read := by
  refine isRecord_tagged fun t => ?_
  split
  · exact (isRecord_pair Transaction.isRecord isRecord_signatures).toDelimited
  · exact delimited_unknown _ _

theorem FeeBump.isRecord : IsRecord FeeBump.codec.read :=
  isRecord_imap (isRecord_beforeExt _ (isRecord_pair MuxedAccount.isRecord <|
    isRecord_pair isRecord_int64 FeeBump.isRecord_inner))

theorem Payload.isRecord : IsRecord Payload.codec.read := by
  refine isRecord_tagged fun t => ?_
  split
  · exact delimited_arm Transaction.isRecord_legacy
  · exact delimited_arm Transaction.isRecord
  · exact delimited_arm FeeBump.isRecord
  · exact delimited_unknown _ _

theorem Envelope.isRecord : IsRecord Envelope.codec.read :=
  isRecord_imap (isRecord_pair Payload.isRecord isRecord_signatures)

/-! ## Results -/

theorem OfferEntry.isRecord : IsRecord OfferEntry.codec.read :=
  isRecord_imap (isRecord_beforeExt _ (isRecord_pair AccountId.isRecord <|
    isRecord_pair isRecord_int64 <| isRecord_pair OfferTerms.isRecord isRecord_uint32))

theorem ClaimAtom.isRecord : IsRecord ClaimAtom.codec.read :=
  isRecord_imap (isRecord_pair AccountId.isRecord <| isRecord_pair isRecord_int64 <|
    isRecord_pair Asset.isRecord <| isRecord_pair isRecord_int64 <|
    isRecord_pair Asset.isRecord isRecord_int64)

theorem SimplePayment.isRecord : IsRecord SimplePayment.codec.read :=
  isRecord_imap (isRecord_pair AccountId.isRecord <| isRecord_pair Asset.isRecord isRecord_int64)

theorem PathPaymentResult.isRecord : IsRecord PathPaymentResult.codec.read := by
  refine isRecord_tagged fun t => ?_
  split
  · exact delimited_arm (isRecord_pair (isRecord_array _ _ ClaimAtom.isRecord)
      SimplePayment.isRecord)
  · exact delimited_arm Asset.isRecord
  · exact delimited_only _

theorem OfferEffect.isRecord : IsRecord OfferEffect.codec.read := by
  refine isRecord_tagged fun t => ?_
  split
  · exact delimited_arm OfferEntry.isRecord
  · exact delimited_arm OfferEntry.isRecord
  · exact delimited_only _
  · exact delimited_unknown _ _

theorem ManageOfferResult.isRecord : IsRecord ManageOfferResult.codec.read := by
  refine isRecord_tagged fun t => ?_
  split
  · exact delimited_arm (isRecord_pair (isRecord_array _ _ ClaimAtom.isRecord) OfferEffect.isRecord)
  · exact delimited_only _

theorem MergeResult.isRecord : IsRecord MergeResult.codec.read := by
  refine isRecord_tagged fun t => ?_
  split
  · exact delimited_arm isRecord_int64
  · exact delimited_only _

theorem Payout.isRecord : IsRecord Payout.codec.read :=
  isRecord_imap (isRecord_pair AccountId.isRecord isRecord_int64)

theorem InflationResult.isRecord : IsRecord InflationResult.codec.read := by
  refine isRecord_tagged fun t => ?_
  split
  · exact delimited_arm (isRecord_array _ _ Payout.isRecord)
  · exact delimited_only _

theorem KindResult.isRecord : IsRecord KindResult.codec.read := by
  refine isRecord_tagged fun t => ?_
  split
  · exact delimited_arm isRecord_int32
  · exact delimited_arm isRecord_int32
  · exact delimited_arm PathPaymentResult.isRecord
  · exact delimited_arm ManageOfferResult.isRecord
  · exact delimited_arm ManageOfferResult.isRecord
  · exact delimited_arm isRecord_int32
  · exact delimited_arm isRecord_int32
  · exact delimited_arm isRecord_int32
  · exact delimited_arm MergeResult.isRecord
  · exact delimited_arm InflationResult.isRecord
  · exact delimited_arm isRecord_int32
  · exact delimited_arm isRecord_int32
  · exact delimited_arm ManageOfferResult.isRecord
  · exact delimited_arm PathPaymentResult.isRecord
  · exact delimited_unknown _ _

theorem OperationResult.isRecord : IsRecord OperationResult.codec.read := by
  refine isRecord_tagged fun t => ?_
  split
  · exact delimited_arm KindResult.isRecord
  · exact delimited_only _
  · exact delimited_only _
  · exact delimited_only _
  · exact delimited_only _
  · exact delimited_only _
  · exact delimited_only _
  · exact delimited_unknown _ _

theorem isRecord_results : IsRecord OperationResult.listCodec.read :=
  isRecord_array _ _ OperationResult.isRecord

theorem InnerResult.isRecord : IsRecord InnerResult.codec.read := by
  refine isRecord_tagged fun t => ?_
  split
  · exact delimited_arm isRecord_results
  · exact delimited_arm isRecord_results
  · exact delimited_refuse _
  · exact delimited_refuse _
  · exact delimited_only _

theorem InnerResultPair.isRecord : IsRecord InnerResultPair.codec.read :=
  isRecord_imap (isRecord_beforeExt _ (isRecord_pair isRecord_hash <|
    isRecord_pair isRecord_int64 InnerResult.isRecord))

theorem TransactionVerdict.isRecord : IsRecord TransactionVerdict.codec.read := by
  refine isRecord_tagged fun t => ?_
  split
  · exact delimited_arm InnerResultPair.isRecord
  · exact delimited_arm InnerResultPair.isRecord
  · exact delimited_arm isRecord_results
  · exact delimited_arm isRecord_results
  · exact delimited_only _

theorem TransactionResult.isRecord : IsRecord TransactionResult.codec.read :=
  isRecord_imap (isRecord_beforeExt _ (isRecord_pair isRecord_int64 TransactionVerdict.isRecord))

theorem ResultPair.isRecord : IsRecord ResultPair.codec.read :=
  isRecord_imap (isRecord_pair isRecord_hash TransactionResult.isRecord)

/-! ## Headers -/

theorem CloseValue.isRecord_signature : IsRecord CloseValue.signatureCodec.read := by
  refine isRecord_tagged fun t => ?_
  split
  · exact delimited_only _
  · exact delimited_arm (isRecord_pair AccountId.isRecord (isRecord_bytes _ _))
  · exact delimited_unknown _ _

theorem CloseValue.isRecord : IsRecord CloseValue.codec.read :=
  isRecord_imap (isRecord_pair isRecord_hash <| isRecord_pair isRecord_uint64 <|
    isRecord_pair (isRecord_array _ _ (isRecord_bytes _ _)) CloseValue.isRecord_signature)

theorem LedgerHeader.isRecord_flags : IsRecord LedgerHeader.flagsCodec.read := by
  refine isRecord_tagged fun t => ?_
  split
  · exact delimited_only _
  · exact delimited_arm (isRecord_beforeExt _ isRecord_uint32)
  · exact delimited_unknown _ _

theorem LedgerHeader.isRecord : IsRecord LedgerHeader.codec.read :=
  isRecord_imap (isRecord_pair isRecord_uint32 <| isRecord_pair isRecord_hash <|
    isRecord_pair CloseValue.isRecord <| isRecord_pair isRecord_hash <|
    isRecord_pair isRecord_hash <| isRecord_pair isRecord_uint32 <|
    isRecord_pair isRecord_int64 <| isRecord_pair isRecord_int64 <|
    isRecord_pair isRecord_uint32 <| isRecord_pair isRecord_uint64 <|
    isRecord_pair isRecord_uint32 <| isRecord_pair isRecord_uint32 <|
    isRecord_pair isRecord_uint32 <| isRecord_pair (isRecord_pair isRecord_hash <|
      isRecord_pair isRecord_hash <| isRecord_pair isRecord_hash isRecord_hash)
    LedgerHeader.isRecord_flags)

theorem HistoryEntry.isRecord : IsRecord HistoryEntry.codec.read :=
  isRecord_imap (isRecord_beforeExt _ (isRecord_pair isRecord_hash LedgerHeader.isRecord))

/-! ## Entries and their changes -/

theorem Liabilities.isRecord : IsRecord Liabilities.read :=
  isRecord_int64.bind fun _ => (isRecord_int64.map _).toDelimited

namespace AccountEntry

theorem isRecord_sponsorship : IsRecord readSponsorship := by
  refine isRecord_int32.bind fun t => ?_
  split
  · exact delimited_pure ()
  · exact isRecord_uint32.toDelimited.bind fun _ => isRecord_uint32.toDelimited.bind fun _ =>
      (isRecord_array _ _ (isRecord_option AccountId.isRecord)).toDelimited.bind fun _ =>
      (isRecord_emptyExt _).toDelimited
  · exact delimited_throw _

theorem isRecord_liabilities : IsRecord readLiabilities := by
  refine isRecord_int32.bind fun t => ?_
  split
  · exact delimited_pure none
  · exact Liabilities.isRecord.toDelimited.bind fun _ => (isRecord_sponsorship.map _).toDelimited
  · exact delimited_throw _

theorem isRecord : IsRecord read :=
  AccountId.isRecord.bind fun _ => isRecord_int64.toDelimited.bind fun _ =>
    isRecord_int64.toDelimited.bind fun _ => isRecord_uint32.toDelimited.bind fun _ =>
    (isRecord_option AccountId.isRecord).toDelimited.bind fun _ =>
    isRecord_uint32.toDelimited.bind fun _ => (isRecord_bytes _ _).toDelimited.bind fun _ =>
    (isRecord_block (by decide)).toDelimited.bind fun _ =>
    (isRecord_array _ _ Signer.isRecord).toDelimited.bind fun _ =>
    (isRecord_liabilities.map _).toDelimited

end AccountEntry

namespace TrustLine

theorem isRecord_liabilities : IsRecord readLiabilities := by
  refine isRecord_int32.bind fun t => ?_
  split
  · exact delimited_pure none
  · exact Liabilities.isRecord.toDelimited.bind fun _ => ((isRecord_emptyExt _).map _).toDelimited
  · exact delimited_throw _

theorem isRecord : IsRecord read :=
  AccountId.isRecord.bind fun _ => Asset.isRecord.toDelimited.bind fun _ =>
    isRecord_int64.toDelimited.bind fun _ => isRecord_int64.toDelimited.bind fun _ =>
    isRecord_uint32.toDelimited.bind fun _ => (isRecord_liabilities.map _).toDelimited

end TrustLine

theorem DataEntry.isRecord : IsRecord DataEntry.read :=
  AccountId.isRecord.bind fun _ => (isRecord_bytes _ _).toDelimited.bind fun _ =>
    (isRecord_bytes _ _).toDelimited.bind fun _ => ((isRecord_emptyExt _).map _).toDelimited

theorem EntryData.isRecord : IsRecord EntryData.read := by
  refine isRecord_int32.bind fun t => ?_
  split
  · exact (AccountEntry.isRecord.map _).toDelimited
  · exact (TrustLine.isRecord.map _).toDelimited
  · exact (OfferEntry.isRecord.map _).toDelimited
  · exact (DataEntry.isRecord.map _).toDelimited
  · exact delimited_throw _

theorem LedgerEntry.isRecord_sponsor : IsRecord LedgerEntry.readSponsor := by
  refine isRecord_int32.bind fun t => ?_
  split
  · exact delimited_pure none
  · exact (isRecord_option AccountId.isRecord).toDelimited.bind fun _ =>
      ((isRecord_emptyExt _).map _).toDelimited
  · exact delimited_throw _

theorem LedgerEntry.isRecord : IsRecord LedgerEntry.read :=
  isRecord_uint32.bind fun _ => EntryData.isRecord.toDelimited.bind fun _ =>
    (LedgerEntry.isRecord_sponsor.map _).toDelimited

theorem LedgerKey.isRecord : IsRecord LedgerKey.read := by
  refine isRecord_int32.bind fun t => ?_
  split
  · exact (AccountId.isRecord.map _).toDelimited
  · exact AccountId.isRecord.toDelimited.bind fun _ => (Asset.isRecord.map _).toDelimited
  · exact AccountId.isRecord.toDelimited.bind fun _ => (isRecord_int64.map _).toDelimited
  · exact AccountId.isRecord.toDelimited.bind fun _ => ((isRecord_bytes _ _).map _).toDelimited
  · exact delimited_throw _

theorem EntryChange.isRecord : IsRecord EntryChange.read := by
  refine isRecord_int32.bind fun t => ?_
  split
  · exact (LedgerEntry.isRecord.map _).toDelimited
  · exact (LedgerEntry.isRecord.map _).toDelimited
  · exact (LedgerKey.isRecord.map _).toDelimited
  · exact (LedgerEntry.isRecord.map _).toDelimited
  · exact delimited_throw _

theorem EntryChange.isRecord_all : IsRecord EntryChange.readAll :=
  isRecord_array _ _ EntryChange.isRecord

namespace TransactionMeta

theorem isRecord_operations : IsRecord readOperations := isRecord_array _ _ EntryChange.isRecord_all

theorem isRecord : IsRecord read := by
  refine isRecord_int32.bind fun t => ?_
  split
  · exact (isRecord_operations.map _).toDelimited
  · exact EntryChange.isRecord_all.toDelimited.bind fun _ =>
      (isRecord_operations.map _).toDelimited
  · exact EntryChange.isRecord_all.toDelimited.bind fun _ =>
      isRecord_operations.toDelimited.bind fun _ => (EntryChange.isRecord_all.map _).toDelimited
  · exact delimited_throw _

end TransactionMeta

theorem Applied.isRecord : IsRecord Applied.read :=
  ResultPair.isRecord.bind fun _ => EntryChange.isRecord_all.toDelimited.bind fun _ =>
    (TransactionMeta.isRecord.map _).toDelimited

/-! ## All types -/

/-- The types of the format, and optional values and lists of them. -/
inductive RecordType where
  | uint32
  | int32
  | uint64
  | int64
  | hash
  | string (max : Nat)
  | option (t : RecordType)
  | array (kind : String) (max : Nat) (t : RecordType)
  | accountId
  | muxedAccount
  | asset
  | assetCode
  | price
  | memo
  | timeBounds
  | signerKey
  | signer
  | signature
  | closeValue
  | header
  | historyEntry
  | operationBody
  | operation
  | transaction
  | envelope
  | claimAtom
  | payout
  | kindResult
  | operationResult
  | innerResultPair
  | transactionResult
  | resultPair
  | liabilities
  | accountEntry
  | trustLine
  | offerEntry
  | dataEntry
  | ledgerEntry
  | ledgerKey
  | entryChange
  | entryChanges
  | transactionMeta
  | applied

namespace RecordType

/-- The values that a type of records has. -/
def Value : RecordType → Type
  | uint32 => UInt32
  | int32 => Int32
  | uint64 => UInt64
  | int64 => Int64
  | hash => Hash
  | string _ => Bytes
  | option t => Option t.Value
  | array _ _ t => List t.Value
  | accountId => AccountId
  | muxedAccount => MuxedAccount
  | asset => Asset
  | assetCode => AssetCode
  | price => Price
  | memo => Memo
  | timeBounds => TimeBounds
  | signerKey => SignerKey
  | signer => Signer
  | signature => Signature
  | closeValue => CloseValue
  | header => LedgerHeader
  | historyEntry => HistoryEntry
  | operationBody => OperationBody
  | operation => Operation
  | transaction => Transaction
  | envelope => Envelope
  | claimAtom => ClaimAtom
  | payout => Payout
  | kindResult => KindResult
  | operationResult => OperationResult
  | innerResultPair => InnerResultPair
  | transactionResult => TransactionResult
  | resultPair => ResultPair
  | liabilities => Liabilities
  | accountEntry => AccountEntry
  | trustLine => TrustLine
  | offerEntry => OfferEntry
  | dataEntry => DataEntry
  | ledgerEntry => LedgerEntry
  | ledgerKey => LedgerKey
  | entryChange => EntryChange
  | entryChanges => List EntryChange
  | transactionMeta => TransactionMeta
  | applied => Applied

/-- The reader of a type of records. -/
def read : (t : RecordType) → Reader t.Value
  | uint32 => Reader.uint32
  | int32 => Reader.int32
  | uint64 => Reader.uint64
  | int64 => Reader.int64
  | hash => Codec.hash.read
  | string max => Reader.bytes "string" max
  | option t => Reader.option t.read
  | array kind max t => Reader.array kind max t.read
  | accountId => AccountId.codec.read
  | muxedAccount => MuxedAccount.codec.read
  | asset => Asset.codec.read
  | assetCode => AssetCode.codec.read
  | price => Price.codec.read
  | memo => Memo.codec.read
  | timeBounds => TimeBounds.codec.read
  | signerKey => SignerKey.codec.read
  | signer => Signer.codec.read
  | signature => Signature.codec.read
  | closeValue => CloseValue.codec.read
  | header => LedgerHeader.codec.read
  | historyEntry => HistoryEntry.codec.read
  | operationBody => OperationBody.codec.read
  | operation => Operation.codec.read
  | transaction => Transaction.codec.read
  | envelope => Envelope.codec.read
  | claimAtom => ClaimAtom.codec.read
  | payout => Payout.codec.read
  | kindResult => KindResult.codec.read
  | operationResult => OperationResult.codec.read
  | innerResultPair => InnerResultPair.codec.read
  | transactionResult => TransactionResult.codec.read
  | resultPair => ResultPair.codec.read
  | liabilities => Liabilities.read
  | accountEntry => AccountEntry.read
  | trustLine => TrustLine.read
  | offerEntry => OfferEntry.codec.read
  | dataEntry => DataEntry.read
  | ledgerEntry => LedgerEntry.read
  | ledgerKey => LedgerKey.read
  | entryChange => EntryChange.read
  | entryChanges => EntryChange.readAll
  | transactionMeta => TransactionMeta.read
  | applied => Applied.read

theorem isRecord (t : RecordType) : IsRecord t.read := by
  induction t with
  | uint32 => exact isRecord_uint32
  | int32 => exact isRecord_int32
  | uint64 => exact isRecord_uint64
  | int64 => exact isRecord_int64
  | hash => exact isRecord_hash
  | string max => exact isRecord_bytes _ max
  | option t ih => exact isRecord_option ih
  | array kind max t ih => exact isRecord_array kind max ih
  | accountId => exact AccountId.isRecord
  | muxedAccount => exact MuxedAccount.isRecord
  | asset => exact Asset.isRecord
  | assetCode => exact AssetCode.isRecord
  | price => exact Price.isRecord
  | memo => exact Memo.isRecord
  | timeBounds => exact TimeBounds.isRecord
  | signerKey => exact SignerKey.isRecord
  | signer => exact Signer.isRecord
  | signature => exact Signature.isRecord
  | closeValue => exact CloseValue.isRecord
  | header => exact LedgerHeader.isRecord
  | historyEntry => exact HistoryEntry.isRecord
  | operationBody => exact OperationBody.isRecord
  | operation => exact Operation.isRecord
  | transaction => exact Transaction.isRecord
  | envelope => exact Envelope.isRecord
  | claimAtom => exact ClaimAtom.isRecord
  | payout => exact Payout.isRecord
  | kindResult => exact KindResult.isRecord
  | operationResult => exact OperationResult.isRecord
  | innerResultPair => exact InnerResultPair.isRecord
  | transactionResult => exact TransactionResult.isRecord
  | resultPair => exact ResultPair.isRecord
  | liabilities => exact Liabilities.isRecord
  | accountEntry => exact AccountEntry.isRecord
  | trustLine => exact TrustLine.isRecord
  | offerEntry => exact OfferEntry.isRecord
  | dataEntry => exact DataEntry.isRecord
  | ledgerEntry => exact LedgerEntry.isRecord
  | ledgerKey => exact LedgerKey.isRecord
  | entryChange => exact EntryChange.isRecord
  | entryChanges => exact EntryChange.isRecord_all
  | transactionMeta => exact TransactionMeta.isRecord
  | applied => exact Applied.isRecord

/-- A record takes one word at least and whole words only. Its bytes alone decide what is read and
    how much: what stands before and after them does not matter, a part of them from the front is an
    input that ended, and bytes behind them are too many for a record on its own. -/
theorem read_selfDelimiting (t : RecordType) {c c' : Cursor} {a : t.Value}
    (h : t.read c = .ok a c') :
    ∃ bs, c.After bs c' ∧ 0 < bs.length ∧ 4 ∣ bs.length ∧
      (∀ offset after, t.read ⟨bs ++ after, offset⟩ = .ok a ⟨after, offset + bs.length⟩) ∧
      (∀ offset k, k < bs.length → ∃ place needed left,
        t.read ⟨bs.take k, offset⟩ = .error (.unexpectedEnd place needed) left) ∧
      ∀ suffix, suffix ≠ [] →
        t.read.decode (bs ++ suffix) = .error (.trailingBytes suffix.length) := by
  obtain ⟨bs, hbs, hwords, hacc⟩ := t.isRecord.exists_bytes h
  have hpos : 0 < bs.length := by
    have hlt := t.isRecord.advances h
    rw [hbs.2] at hlt
    omega
  refine ⟨bs, hbs, hpos, hwords, ?_, ?_, ?_⟩
  · intro offset after
    exact hacc.read_eq ⟨rfl, rfl⟩
  · intro offset k hk
    exact hacc.misses hk rfl
  · intro suffix hsuffix
    exact hacc.decode_append hsuffix

/-- A memo of three letters and a padding byte, behind eight bytes and before two. -/
theorem read_selfDelimiting_memo :
    memo.read ⟨[0, 0, 0, 1, 0, 0, 0, 3, 97, 98, 99, 0, 5, 6], 8⟩ =
        .ok (.text [97, 98, 99]) ⟨[5, 6], 20⟩ ∧
      memo.read.decode [0, 0, 0, 1, 0, 0, 0, 3, 97, 98, 99, 0, 5, 6] =
        .error (.trailingBytes 2) := by
  have h : memo.read ⟨[0, 0, 0, 1, 0, 0, 0, 3, 97, 98, 99, 0, 5, 6], 8⟩ =
      .ok (.text [97, 98, 99]) ⟨[5, 6], 20⟩ := by rfl
  refine ⟨h, ?_⟩
  obtain ⟨bs, hbs, -, -, -, -, htrailing⟩ := read_selfDelimiting memo h
  have heq : bs = [0, 0, 0, 1, 0, 0, 0, 3, 97, 98, 99, 0] :=
    List.append_cancel_right hbs.1.symm
  rw [heq] at htrailing
  exact htrailing [5, 6] (by decide)

end RecordType

end LedgerSearch
