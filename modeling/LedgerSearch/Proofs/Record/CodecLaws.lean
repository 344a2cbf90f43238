import Mathlib
import LedgerSearch.Proofs.Wire.CodecLaws
import LedgerSearch.Record.Header
import LedgerSearch.Record.Result
import LedgerSearch.Record.Transaction

/-
  The codecs of the records are lawful, part by part: a record is the list of its fields under other
  names, and a union is lawful when each arm is and carries the number the arm stands under.
-/

namespace LedgerSearch

open Wire Wire.Codec

/-! ## Accounts and assets -/

theorem AccountId.lawful_codec : AccountId.codec.Lawful := by
  refine lawful_tagged fun t => ?_
  split
  · next h =>
    exact lawfulArm_of_tag (lawful_imap (lawful_block 32) (fun _ => rfl) fun _ => rfl)
      fun _ => h.symm
  · exact lawfulArm_unknown _ _

namespace MuxedAccount

theorem plain_view (key : Block 32) (m : MuxedAccount) :
    (match m.id with
      | none => some m.key
      | some _ => none) = some key ↔ m = ⟨key, none⟩ := by
  obtain ⟨key', id⟩ := m
  cases id <;> simp

theorem divided_view (p : UInt64 × Block 32) (m : MuxedAccount) :
    m.id.map (fun id => (id, m.key)) = some p ↔ m = ⟨p.2, some p.1⟩ := by
  obtain ⟨key, id⟩ := m
  cases id <;> simp [Prod.ext_iff, and_comm]

theorem lawful_plain : plain.Lawful := lawful_arm (lawful_block 32) plain_view

theorem lawful_codec : codec.Lawful := by
  refine lawful_tagged fun t => ?_
  split
  · next h => exact lawfulArm_arm (lawful_block 32) plain_view fun _ => h.symm
  · next h =>
    exact lawfulArm_arm (lawful_pair lawful_uint64 (lawful_block 32)) divided_view fun _ => h.symm
  · exact lawfulArm_unknown _ _

end MuxedAccount

theorem SignerKey.lawful_codec : SignerKey.codec.Lawful := by
  refine lawful_tagged fun t => ?_
  split
  · next h =>
    exact lawfulArm_arm (lawful_block 32) (fun _ b => by cases b <;> simp) fun _ => h.symm
  · next h => exact lawfulArm_arm lawful_hash (fun _ b => by cases b <;> simp) fun _ => h.symm
  · next h => exact lawfulArm_arm lawful_hash (fun _ b => by cases b <;> simp) fun _ => h.symm
  · exact lawfulArm_unknown _ _

theorem Signer.lawful_codec : Signer.codec.Lawful :=
  lawful_imap (lawful_pair SignerKey.lawful_codec lawful_uint32) (fun _ => rfl) fun _ => rfl

theorem Signature.lawful_codec : Signature.codec.Lawful :=
  lawful_imap (lawful_pair (lawful_block 4) (lawful_bytes _ _)) (fun _ => rfl) fun _ => rfl

namespace AssetCode

theorem lawfulArm_arm4 {t : Int32} (h : t.toInt = 1) : LawfulArm tag t arm4 :=
  lawfulArm_arm (lawful_block 4) (fun _ b => by cases b <;> simp) fun _ => h.symm

theorem lawfulArm_arm12 {t : Int32} (h : t.toInt = 2) : LawfulArm tag t arm12 :=
  lawfulArm_arm (lawful_block 12) (fun _ b => by cases b <;> simp) fun _ => h.symm

theorem lawful_codec : codec.Lawful := by
  refine lawful_tagged fun t => ?_
  split
  · next h => exact lawfulArm_arm4 h
  · next h => exact lawfulArm_arm12 h
  · exact lawfulArm_unknown _ _

end AssetCode

namespace Asset

theorem lawfulArm_creditArm {code : Codec AssetCode} {t : Int32}
    (hcode : LawfulArm AssetCode.tag t code) : LawfulArm tag t (creditArm code) := by
  refine ⟨lawful_arm (lawful_pair hcode.lawful AccountId.lawful_codec) fun p a => ?_,
    fun a ha => ?_⟩
  · cases a <;> simp [Prod.ext_iff]
  · obtain ⟨p, hp, hfits, -⟩ := ha
    cases a with
    | native => cases hp
    | credit issued issuer =>
      obtain rfl := Option.some.inj hp
      exact hcode.tag_eq issued hfits

theorem lawful_codec : codec.Lawful := by
  refine lawful_tagged fun t => ?_
  split
  · next h => exact lawfulArm_only h.symm
  · next h => exact lawfulArm_creditArm (AssetCode.lawfulArm_arm4 h)
  · next h => exact lawfulArm_creditArm (AssetCode.lawfulArm_arm12 h)
  · exact lawfulArm_unknown _ _

end Asset

theorem Price.lawful_codec : Price.codec.Lawful :=
  lawful_imap (lawful_pair lawful_int32 lawful_int32) (fun _ => rfl) fun _ => rfl

/-! ## Operations -/

theorem PathPayment.lawful_codec : PathPayment.codec.Lawful :=
  lawful_imap (lawful_pair Asset.lawful_codec <| lawful_pair lawful_int64 <|
    lawful_pair MuxedAccount.lawful_codec <| lawful_pair Asset.lawful_codec <|
    lawful_pair lawful_int64 (lawful_array _ _ Asset.lawful_codec)) (fun _ => rfl) fun _ => rfl

theorem OfferTerms.lawful_codec : OfferTerms.codec.Lawful :=
  lawful_imap (lawful_pair Asset.lawful_codec <| lawful_pair Asset.lawful_codec <|
    lawful_pair lawful_int64 Price.lawful_codec) (fun _ => rfl) fun _ => rfl

theorem AccountOptions.lawful_codec : AccountOptions.codec.Lawful := by
  have hnumber := lawful_option lawful_uint32
  exact lawful_imap (lawful_pair (lawful_option AccountId.lawful_codec) <|
    lawful_pair hnumber <| lawful_pair hnumber <| lawful_pair hnumber <| lawful_pair hnumber <|
    lawful_pair hnumber <| lawful_pair hnumber <| lawful_pair (lawful_option (lawful_bytes _ _))
    (lawful_option Signer.lawful_codec)) (fun _ => rfl) fun _ => rfl

theorem OperationBody.lawful_codec : OperationBody.codec.Lawful := by
  refine lawful_tagged fun t => ?_
  split
  · next h =>
    refine lawfulArm_arm (lawful_pair AccountId.lawful_codec lawful_int64) (fun p b => ?_)
      fun _ => h.symm
    cases b <;> simp [Prod.ext_iff]
  · next h =>
    refine lawfulArm_arm (lawful_pair MuxedAccount.lawful_codec <|
      lawful_pair Asset.lawful_codec lawful_int64) (fun p b => ?_) fun _ => h.symm
    cases b <;> simp [Prod.ext_iff]
  · next h =>
    exact lawfulArm_arm PathPayment.lawful_codec (fun _ b => by cases b <;> simp) fun _ => h.symm
  · next h =>
    refine lawfulArm_arm (lawful_pair OfferTerms.lawful_codec lawful_int64) (fun p b => ?_)
      fun _ => h.symm
    cases b <;> simp [Prod.ext_iff]
  · next h =>
    exact lawfulArm_arm OfferTerms.lawful_codec (fun _ b => by cases b <;> simp) fun _ => h.symm
  · next h =>
    exact lawfulArm_arm AccountOptions.lawful_codec (fun _ b => by cases b <;> simp) fun _ => h.symm
  · next h =>
    refine lawfulArm_arm (lawful_pair Asset.lawful_codec lawful_int64) (fun p b => ?_)
      fun _ => h.symm
    cases b <;> simp [Prod.ext_iff]
  · next h =>
    refine lawfulArm_arm (lawful_pair AccountId.lawful_codec <|
      lawful_pair AssetCode.lawful_codec lawful_uint32) (fun p b => ?_) fun _ => h.symm
    cases b <;> simp [Prod.ext_iff]
  · next h =>
    exact lawfulArm_arm MuxedAccount.lawful_codec (fun _ b => by cases b <;> simp) fun _ => h.symm
  · next h => exact lawfulArm_only h.symm
  · next h =>
    refine lawfulArm_arm (lawful_pair (lawful_bytes _ _) (lawful_option (lawful_bytes _ _)))
      (fun p b => ?_) fun _ => h.symm
    cases b <;> simp [Prod.ext_iff]
  · next h => exact lawfulArm_arm lawful_int64 (fun _ b => by cases b <;> simp) fun _ => h.symm
  · next h =>
    refine lawfulArm_arm (lawful_pair OfferTerms.lawful_codec lawful_int64) (fun p b => ?_)
      fun _ => h.symm
    cases b <;> simp [Prod.ext_iff]
  · next h =>
    exact lawfulArm_arm PathPayment.lawful_codec (fun _ b => by cases b <;> simp) fun _ => h.symm
  · exact lawfulArm_unknown _ _

theorem Operation.lawful_codec : Operation.codec.Lawful :=
  lawful_imap (lawful_pair (lawful_option MuxedAccount.lawful_codec) OperationBody.lawful_codec)
    (fun _ => rfl) fun _ => rfl

/-! ## Transactions -/

theorem Memo.lawful_codec : Memo.codec.Lawful := by
  refine lawful_tagged fun t => ?_
  split
  · next h => exact lawfulArm_only h.symm
  · next h =>
    exact lawfulArm_arm (lawful_bytes _ _) (fun _ b => by cases b <;> simp) fun _ => h.symm
  · next h => exact lawfulArm_arm lawful_uint64 (fun _ b => by cases b <;> simp) fun _ => h.symm
  · next h => exact lawfulArm_arm lawful_hash (fun _ b => by cases b <;> simp) fun _ => h.symm
  · next h => exact lawfulArm_arm lawful_hash (fun _ b => by cases b <;> simp) fun _ => h.symm
  · exact lawfulArm_unknown _ _

theorem TimeBounds.lawful_codec : TimeBounds.codec.Lawful :=
  lawful_imap (lawful_pair lawful_uint64 lawful_uint64) (fun _ => rfl) fun _ => rfl

namespace Transaction

theorem lawful_codecFrom {source : Codec MuxedAccount} (hsource : source.Lawful) :
    (codecFrom source).Lawful :=
  lawful_imap (lawful_beforeExt _ (lawful_pair hsource <| lawful_pair lawful_uint32 <|
    lawful_pair lawful_int64 <| lawful_pair (lawful_option TimeBounds.lawful_codec) <|
    lawful_pair Memo.lawful_codec (lawful_array _ _ Operation.lawful_codec)))
    (fun _ => rfl) fun _ => rfl

theorem lawful_codec : codec.Lawful := lawful_codecFrom MuxedAccount.lawful_codec

theorem lawful_legacyCodec : legacyCodec.Lawful := lawful_codecFrom MuxedAccount.lawful_plain

end Transaction

theorem lawful_signaturesCodec : signaturesCodec.Lawful := lawful_array _ _ Signature.lawful_codec

namespace FeeBump

theorem lawful_innerCodec : innerCodec.Lawful := by
  refine lawful_tagged fun t => ?_
  split
  · next h =>
    exact lawfulArm_of_tag (lawful_pair Transaction.lawful_codec lawful_signaturesCodec)
      fun _ => h.symm
  · exact lawfulArm_unknown _ _

theorem lawful_codec : codec.Lawful :=
  lawful_imap (lawful_beforeExt _ (lawful_pair MuxedAccount.lawful_codec <|
    lawful_pair lawful_int64 lawful_innerCodec)) (fun _ => rfl) fun _ => rfl

end FeeBump

theorem Payload.lawful_codec : Payload.codec.Lawful := by
  refine lawful_tagged fun t => ?_
  split
  · next h =>
    exact lawfulArm_arm Transaction.lawful_legacyCodec (fun _ b => by cases b <;> simp)
      fun _ => h.symm
  · next h =>
    exact lawfulArm_arm Transaction.lawful_codec (fun _ b => by cases b <;> simp) fun _ => h.symm
  · next h =>
    exact lawfulArm_arm FeeBump.lawful_codec (fun _ b => by cases b <;> simp) fun _ => h.symm
  · exact lawfulArm_unknown _ _

theorem Envelope.lawful_codec : Envelope.codec.Lawful :=
  lawful_imap (lawful_pair Payload.lawful_codec lawful_signaturesCodec) (fun _ => rfl) fun _ => rfl

/-! ## Results -/

theorem OfferEntry.lawful_codec : OfferEntry.codec.Lawful :=
  lawful_imap (lawful_beforeExt _ (lawful_pair AccountId.lawful_codec <| lawful_pair lawful_int64 <|
    lawful_pair OfferTerms.lawful_codec lawful_uint32)) (fun _ => rfl) fun _ => rfl

theorem ClaimAtom.lawful_codec : ClaimAtom.codec.Lawful :=
  lawful_imap (lawful_pair AccountId.lawful_codec <| lawful_pair lawful_int64 <|
    lawful_pair Asset.lawful_codec <| lawful_pair lawful_int64 <|
    lawful_pair Asset.lawful_codec lawful_int64) (fun _ => rfl) fun _ => rfl

theorem SimplePayment.lawful_codec : SimplePayment.codec.Lawful :=
  lawful_imap (lawful_pair AccountId.lawful_codec <| lawful_pair Asset.lawful_codec lawful_int64)
    (fun _ => rfl) fun _ => rfl

theorem PathPaymentResult.lawful_codec : PathPaymentResult.codec.Lawful := by
  refine lawful_tagged fun t => ?_
  split
  · next h =>
    refine lawfulArm_arm (lawful_pair (lawful_array _ _ ClaimAtom.lawful_codec)
      SimplePayment.lawful_codec) (fun p b => ?_) fun _ => h.symm
    cases b <;> simp [Prod.ext_iff]
  · next h =>
    exact lawfulArm_arm Asset.lawful_codec (fun _ b => by cases b <;> simp) fun _ => h.symm
  · exact lawfulArm_only rfl

theorem OfferEffect.lawful_codec : OfferEffect.codec.Lawful := by
  refine lawful_tagged fun t => ?_
  split
  · next h =>
    exact lawfulArm_arm OfferEntry.lawful_codec (fun _ b => by cases b <;> simp) fun _ => h.symm
  · next h =>
    exact lawfulArm_arm OfferEntry.lawful_codec (fun _ b => by cases b <;> simp) fun _ => h.symm
  · next h => exact lawfulArm_only h.symm
  · exact lawfulArm_unknown _ _

theorem ManageOfferResult.lawful_codec : ManageOfferResult.codec.Lawful := by
  refine lawful_tagged fun t => ?_
  split
  · next h =>
    refine lawfulArm_arm (lawful_pair (lawful_array _ _ ClaimAtom.lawful_codec)
      OfferEffect.lawful_codec) (fun p b => ?_) fun _ => h.symm
    cases b <;> simp [Prod.ext_iff]
  · exact lawfulArm_only rfl

theorem MergeResult.lawful_codec : MergeResult.codec.Lawful := by
  refine lawful_tagged fun t => ?_
  split
  · next h => exact lawfulArm_arm lawful_int64 (fun _ b => by cases b <;> simp) fun _ => h.symm
  · exact lawfulArm_only rfl

theorem Payout.lawful_codec : Payout.codec.Lawful :=
  lawful_imap (lawful_pair AccountId.lawful_codec lawful_int64) (fun _ => rfl) fun _ => rfl

theorem InflationResult.lawful_codec : InflationResult.codec.Lawful := by
  refine lawful_tagged fun t => ?_
  split
  · next h =>
    exact lawfulArm_arm (lawful_array _ _ Payout.lawful_codec) (fun _ b => by cases b <;> simp)
      fun _ => h.symm
  · exact lawfulArm_only rfl

theorem KindResult.lawful_codec : KindResult.codec.Lawful := by
  refine lawful_tagged fun t => ?_
  split
  · next h => exact lawfulArm_arm lawful_int32 (fun _ b => by cases b <;> simp) fun _ => h.symm
  · next h => exact lawfulArm_arm lawful_int32 (fun _ b => by cases b <;> simp) fun _ => h.symm
  · next h =>
    exact lawfulArm_arm PathPaymentResult.lawful_codec (fun _ b => by cases b <;> simp)
      fun _ => h.symm
  · next h =>
    exact lawfulArm_arm ManageOfferResult.lawful_codec (fun _ b => by cases b <;> simp)
      fun _ => h.symm
  · next h =>
    exact lawfulArm_arm ManageOfferResult.lawful_codec (fun _ b => by cases b <;> simp)
      fun _ => h.symm
  · next h => exact lawfulArm_arm lawful_int32 (fun _ b => by cases b <;> simp) fun _ => h.symm
  · next h => exact lawfulArm_arm lawful_int32 (fun _ b => by cases b <;> simp) fun _ => h.symm
  · next h => exact lawfulArm_arm lawful_int32 (fun _ b => by cases b <;> simp) fun _ => h.symm
  · next h =>
    exact lawfulArm_arm MergeResult.lawful_codec (fun _ b => by cases b <;> simp) fun _ => h.symm
  · next h =>
    exact lawfulArm_arm InflationResult.lawful_codec (fun _ b => by cases b <;> simp)
      fun _ => h.symm
  · next h => exact lawfulArm_arm lawful_int32 (fun _ b => by cases b <;> simp) fun _ => h.symm
  · next h => exact lawfulArm_arm lawful_int32 (fun _ b => by cases b <;> simp) fun _ => h.symm
  · next h =>
    exact lawfulArm_arm ManageOfferResult.lawful_codec (fun _ b => by cases b <;> simp)
      fun _ => h.symm
  · next h =>
    exact lawfulArm_arm PathPaymentResult.lawful_codec (fun _ b => by cases b <;> simp)
      fun _ => h.symm
  · exact lawfulArm_unknown _ _

namespace OperationResult

theorem lawful_codec : codec.Lawful := by
  refine lawful_tagged fun t => ?_
  split
  · next h =>
    refine lawfulArm_arm KindResult.lawful_codec (fun r b => ?_) fun _ => h.symm
    cases b <;> simp [inner?]
  · next h => exact lawfulArm_only h.symm
  · next h => exact lawfulArm_only h.symm
  · next h => exact lawfulArm_only h.symm
  · next h => exact lawfulArm_only h.symm
  · next h => exact lawfulArm_only h.symm
  · next h => exact lawfulArm_only h.symm
  · exact lawfulArm_unknown _ _

theorem lawful_listCodec : listCodec.Lawful := lawful_array _ _ lawful_codec

end OperationResult

theorem InnerResult.lawful_codec : InnerResult.codec.Lawful := by
  refine lawful_tagged fun t => ?_
  split
  · next h =>
    exact lawfulArm_arm OperationResult.lawful_listCodec (fun _ b => by cases b <;> simp)
      fun _ => h.symm
  · next h =>
    exact lawfulArm_arm OperationResult.lawful_listCodec (fun _ b => by cases b <;> simp)
      fun _ => h.symm
  · exact lawfulArm_refuse _
  · exact lawfulArm_refuse _
  · exact lawfulArm_only rfl

theorem InnerResultPair.lawful_codec : InnerResultPair.codec.Lawful :=
  lawful_imap (lawful_beforeExt _ (lawful_pair lawful_hash <|
    lawful_pair lawful_int64 InnerResult.lawful_codec)) (fun _ => rfl) fun _ => rfl

theorem TransactionVerdict.lawful_codec : TransactionVerdict.codec.Lawful := by
  refine lawful_tagged fun t => ?_
  split
  · next h =>
    exact lawfulArm_arm InnerResultPair.lawful_codec (fun _ b => by cases b <;> simp)
      fun _ => h.symm
  · next h =>
    exact lawfulArm_arm InnerResultPair.lawful_codec (fun _ b => by cases b <;> simp)
      fun _ => h.symm
  · next h =>
    exact lawfulArm_arm OperationResult.lawful_listCodec (fun _ b => by cases b <;> simp)
      fun _ => h.symm
  · next h =>
    exact lawfulArm_arm OperationResult.lawful_listCodec (fun _ b => by cases b <;> simp)
      fun _ => h.symm
  · exact lawfulArm_only rfl

theorem TransactionResult.lawful_codec : TransactionResult.codec.Lawful :=
  lawful_imap (lawful_beforeExt _ (lawful_pair lawful_int64 TransactionVerdict.lawful_codec))
    (fun _ => rfl) fun _ => rfl

theorem ResultPair.lawful_codec : ResultPair.codec.Lawful :=
  lawful_imap (lawful_pair lawful_hash TransactionResult.lawful_codec) (fun _ => rfl) fun _ => rfl

/-! ## Headers -/

theorem CloseValue.lawful_signatureCodec : CloseValue.signatureCodec.Lawful := by
  refine lawful_tagged fun t => ?_
  split
  · next h => exact lawfulArm_only h.symm
  · next h =>
    exact lawfulArm_arm (lawful_pair AccountId.lawful_codec (lawful_bytes _ _)) (fun _ _ => Iff.rfl)
      fun _ => h.symm
  · exact lawfulArm_unknown _ _

theorem CloseValue.lawful_codec : CloseValue.codec.Lawful :=
  lawful_imap (lawful_pair lawful_hash <| lawful_pair lawful_uint64 <|
    lawful_pair (lawful_array _ _ (lawful_bytes _ _)) lawful_signatureCodec) (fun _ => rfl)
    fun _ => rfl

theorem LedgerHeader.lawful_flagsCodec : LedgerHeader.flagsCodec.Lawful := by
  refine lawful_tagged fun t => ?_
  split
  · next h => exact lawfulArm_only h.symm
  · next h =>
    exact lawfulArm_arm (lawful_beforeExt _ lawful_uint32) (fun _ _ => Iff.rfl) fun _ => h.symm
  · exact lawfulArm_unknown _ _

theorem LedgerHeader.lawful_codec : LedgerHeader.codec.Lawful :=
  lawful_imap (lawful_pair lawful_uint32 <| lawful_pair lawful_hash <|
    lawful_pair CloseValue.lawful_codec <| lawful_pair lawful_hash <| lawful_pair lawful_hash <|
    lawful_pair lawful_uint32 <| lawful_pair lawful_int64 <| lawful_pair lawful_int64 <|
    lawful_pair lawful_uint32 <| lawful_pair lawful_uint64 <| lawful_pair lawful_uint32 <|
    lawful_pair lawful_uint32 <| lawful_pair lawful_uint32 <|
    lawful_pair (lawful_pair lawful_hash <| lawful_pair lawful_hash <|
      lawful_pair lawful_hash lawful_hash) lawful_flagsCodec) (fun _ => rfl) fun _ => rfl

theorem HistoryEntry.lawful_codec : HistoryEntry.codec.Lawful :=
  lawful_imap (lawful_beforeExt _ (lawful_pair lawful_hash LedgerHeader.lawful_codec))
    (fun _ => rfl) fun _ => rfl

end LedgerSearch
