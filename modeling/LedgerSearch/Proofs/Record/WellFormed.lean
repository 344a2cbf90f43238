import Mathlib
import LedgerSearch.Proofs.Record.CodecLaws

/-
  The records that have a place in the format, said of their fields, and that decoding is one to
  one between the byte strings it accepts and these records (`decode_bijective`).

  What bounds a record are the lengths of its lists and byte strings, the codes that have a
  constructor of their own, and the bare key an older transaction starts with. Everything else is
  free.
-/

namespace LedgerSearch

open Wire Wire.Codec

/-! ## Operations -/

/-- A signature has at most 64 bytes. -/
def Signature.WellFormed (s : Signature) : Prop := s.signature.length ≤ 64

/-- A path has at most five assets. -/
def PathPayment.WellFormed (p : PathPayment) : Prop := p.path.length ≤ 5

/-- A home domain has at most 32 bytes. -/
def AccountOptions.WellFormed (o : AccountOptions) : Prop := ∀ d ∈ o.homeDomain, d.length ≤ 32

/-- The bounds of the kinds that have any. -/
def OperationBody.WellFormed : OperationBody → Prop
  | .pathPaymentStrictReceive p => p.WellFormed
  | .pathPaymentStrictSend p => p.WellFormed
  | .setOptions o => o.WellFormed
  | .manageData name value => name.length ≤ 64 ∧ ∀ v ∈ value, v.length ≤ 64
  | _ => True

/-! ## Transactions -/

/-- A text has at most 28 bytes. -/
def Memo.WellFormed : Memo → Prop
  | .text bytes => bytes.length ≤ 28
  | _ => True

/-- The bounds of a transaction and of all that it holds. -/
structure Transaction.WellFormed (t : Transaction) : Prop where
  memo : t.memo.WellFormed
  operations_le : t.operations.length ≤ 100
  operations : ∀ o ∈ t.operations, o.body.WellFormed

/-- At most twenty signatures, each within its own bound. -/
def SignaturesWellFormed (ss : List Signature) : Prop :=
  ss.length ≤ 20 ∧ ∀ s ∈ ss, s.WellFormed

/-- An older transaction has a bare key as its source. -/
def Payload.WellFormed : Payload → Prop
  | .legacy tx => tx.source.id = none ∧ tx.WellFormed
  | .plain tx => tx.WellFormed
  | .feeBump bump => bump.inner.WellFormed ∧ SignaturesWellFormed bump.innerSignatures

/-- The bounds of what is signed and of the signatures. -/
def Envelope.WellFormed (e : Envelope) : Prop :=
  e.payload.WellFormed ∧ SignaturesWellFormed e.signatures

/-! ## Results -/

/-- A code with a payload of its own is no plain failure. -/
def PathPaymentResult.WellFormed : PathPaymentResult → Prop
  | .success offers _ => offers.length < UInt32.size
  | .noIssuer _ => True
  | .failure code => code ≠ 0 ∧ code ≠ -9

/-- Zero is no failure. -/
def ManageOfferResult.WellFormed : ManageOfferResult → Prop
  | .success claimed _ => claimed.length < UInt32.size
  | .failure code => code ≠ 0

def MergeResult.WellFormed : MergeResult → Prop
  | .success _ => True
  | .failure code => code ≠ 0

def InflationResult.WellFormed : InflationResult → Prop
  | .success payouts => payouts.length < UInt32.size
  | .failure code => code ≠ 0

/-- The bounds of the kinds with a payload. -/
def KindResult.WellFormed : KindResult → Prop
  | .pathPaymentStrictReceive r => r.WellFormed
  | .pathPaymentStrictSend r => r.WellFormed
  | .manageSellOffer r => r.WellFormed
  | .createPassiveSellOffer r => r.WellFormed
  | .manageBuyOffer r => r.WellFormed
  | .accountMerge r => r.WellFormed
  | .inflation r => r.WellFormed
  | _ => True

/-- Only a result that was tried has bounds. -/
def OperationResult.WellFormed : OperationResult → Prop
  | .inner r => r.WellFormed
  | _ => True

/-- A count that four bytes hold, and results within their own bounds. -/
def ResultsWellFormed (rs : List OperationResult) : Prop :=
  rs.length < UInt32.size ∧ ∀ r ∈ rs, r.WellFormed

/-- A code with a form of its own, here or for a fee bump, is not among the others. -/
def InnerResult.WellFormed : InnerResult → Prop
  | .success results => ResultsWellFormed results
  | .failed results => ResultsWellFormed results
  | .other code => code ≠ 0 ∧ code ≠ -1 ∧ code ≠ 1 ∧ code ≠ -13

/-- A code with a form of its own is not among the others. -/
def TransactionVerdict.WellFormed : TransactionVerdict → Prop
  | .feeBumpSuccess inner => inner.result.WellFormed
  | .feeBumpFailed inner => inner.result.WellFormed
  | .success results => ResultsWellFormed results
  | .failed results => ResultsWellFormed results
  | .other code => code ≠ 1 ∧ code ≠ -13 ∧ code ≠ 0 ∧ code ≠ -1

/-- The bounds of the result; a hash has none. -/
def ResultPair.WellFormed (p : ResultPair) : Prop := p.result.verdict.WellFormed

/-! ## Headers -/

/-- At most six upgrades of at most 128 bytes, and a signature of at most 64. -/
structure CloseValue.WellFormed (v : CloseValue) : Prop where
  upgrades_le : v.upgrades.length ≤ 6
  upgrades : ∀ u ∈ v.upgrades, u.length ≤ 128
  signature : ∀ s ∈ v.signature, s.2.length ≤ 64

/-- Only the agreed value has bounds. -/
def LedgerHeader.WellFormed (h : LedgerHeader) : Prop := h.value.WellFormed

/-- The bounds of the header; a hash has none. -/
def HistoryEntry.WellFormed (e : HistoryEntry) : Prop := e.header.WellFormed

/-! ## What the codecs are meant for -/

theorem Signature.fits_iff (s : Signature) : Signature.codec.Fits s ↔ s.WellFormed :=
  (and_iff_right trivial).trans (fits_bytes (by decide))

theorem MuxedAccount.fits_plain (m : MuxedAccount) : MuxedAccount.plain.Fits m ↔ m.id = none := by
  obtain ⟨key, id⟩ := m
  cases id with
  | none => exact iff_of_true ⟨key, rfl, trivial⟩ rfl
  | some n => exact iff_of_false (not_fits_arm rfl) nofun

theorem MuxedAccount.fits (m : MuxedAccount) : MuxedAccount.codec.Fits m := by
  obtain ⟨key, id⟩ := m
  cases id with
  | none => exact ⟨key, rfl, trivial⟩
  | some n => exact ⟨(n, key), rfl, trivial, trivial⟩

theorem SignerKey.fits (k : SignerKey) : SignerKey.codec.Fits k := by
  cases k with
  | ed25519 key => exact ⟨key, rfl, trivial⟩
  | preAuthTx hash => exact ⟨hash, rfl, trivial⟩
  | hashX hash => exact ⟨hash, rfl, trivial⟩

theorem AssetCode.fits (c : AssetCode) : AssetCode.codec.Fits c := by
  cases c with
  | alphanum4 code => exact ⟨code, rfl, trivial⟩
  | alphanum12 code => exact ⟨code, rfl, trivial⟩

theorem Asset.fits (a : Asset) : Asset.codec.Fits a := by
  cases a with
  | native => rfl
  | credit code issuer =>
    cases code with
    | alphanum4 code => exact ⟨(.alphanum4 code, issuer), rfl, ⟨code, rfl, trivial⟩, trivial⟩
    | alphanum12 code => exact ⟨(.alphanum12 code, issuer), rfl, ⟨code, rfl, trivial⟩, trivial⟩

theorem OfferTerms.fits (o : OfferTerms) : OfferTerms.codec.Fits o :=
  ⟨o.selling.fits, o.buying.fits, trivial, trivial, trivial⟩

theorem PathPayment.fits_iff (p : PathPayment) : PathPayment.codec.Fits p ↔ p.WellFormed := by
  have hpath : (Codec.array "path" 5 Asset.codec).Fits p.path ↔ p.path.length ≤ 5 := by
    rw [fits_array (by decide) fun a => iff_true_intro a.fits]
    exact and_iff_left fun _ _ => trivial
  constructor
  · intro h
    obtain ⟨-, -, -, -, -, h⟩ := h
    exact hpath.mp h
  · intro h
    exact ⟨p.sendAsset.fits, trivial, p.destination.fits, p.receiveAsset.fits, trivial, hpath.mpr h⟩

theorem AccountOptions.fits_iff (o : AccountOptions) :
    AccountOptions.codec.Fits o ↔ o.WellFormed := by
  have hdomain : (Codec.option (Codec.bytes "string" 32)).Fits o.homeDomain ↔ o.WellFormed :=
    fits_option fun _ => fits_bytes (by decide)
  constructor
  · intro h
    obtain ⟨-, -, -, -, -, -, -, h, -⟩ := h
    exact hdomain.mp h
  · intro h
    have hnumber : ∀ n : Option UInt32, (Codec.option Codec.uint32).Fits n := fun _ _ _ => trivial
    exact ⟨fun a _ => trivial, hnumber _, hnumber _, hnumber _, hnumber _, hnumber _, hnumber _,
      hdomain.mpr h, fun s _ => ⟨s.key.fits, trivial⟩⟩

theorem OperationBody.fits_iff (b : OperationBody) : OperationBody.codec.Fits b ↔ b.WellFormed := by
  cases b with
  | createAccount d n => exact iff_of_true ⟨(d, n), rfl, trivial, trivial⟩ trivial
  | payment d a n => exact iff_of_true ⟨(d, a, n), rfl, d.fits, a.fits, trivial⟩ trivial
  | pathPaymentStrictReceive p => exact fits_some.trans p.fits_iff
  | manageSellOffer terms n => exact iff_of_true ⟨(terms, n), rfl, terms.fits, trivial⟩ trivial
  | createPassiveSellOffer terms => exact iff_of_true ⟨terms, rfl, terms.fits⟩ trivial
  | setOptions o => exact fits_some.trans o.fits_iff
  | changeTrust line n => exact iff_of_true ⟨(line, n), rfl, line.fits, trivial⟩ trivial
  | allowTrust a code n =>
    exact iff_of_true ⟨(a, code, n), rfl, trivial, code.fits, trivial⟩ trivial
  | accountMerge d => exact iff_of_true ⟨d, rfl, d.fits⟩ trivial
  | inflation => exact iff_of_true rfl trivial
  | manageData name value =>
    refine fits_some.trans (and_congr (fits_bytes (by decide)) ?_)
    exact fits_option fun _ => fits_bytes (by decide)
  | bumpSequence n => exact iff_of_true ⟨n, rfl, trivial⟩ trivial
  | manageBuyOffer terms n => exact iff_of_true ⟨(terms, n), rfl, terms.fits, trivial⟩ trivial
  | pathPaymentStrictSend p => exact fits_some.trans p.fits_iff

theorem Operation.fits_iff (o : Operation) : Operation.codec.Fits o ↔ o.body.WellFormed :=
  (and_iff_right fun m _ => m.fits).trans o.body.fits_iff

theorem Memo.fits_iff (m : Memo) : Memo.codec.Fits m ↔ m.WellFormed := by
  cases m with
  | none => exact iff_of_true rfl trivial
  | text bytes => exact fits_some.trans (fits_bytes (by decide))
  | id n => exact iff_of_true ⟨n, rfl, trivial⟩ trivial
  | hash h => exact iff_of_true ⟨h, rfl, trivial⟩ trivial
  | returnHash h => exact iff_of_true ⟨h, rfl, trivial⟩ trivial

theorem Transaction.fits_codecFrom {source : Codec MuxedAccount} (t : Transaction) :
    (codecFrom source).Fits t ↔ source.Fits t.source ∧ t.WellFormed := by
  have hoperations : (Codec.array "operations" 100 Operation.codec).Fits t.operations ↔
      t.operations.length ≤ 100 ∧ ∀ o ∈ t.operations, o.body.WellFormed :=
    fits_array (by decide) Operation.fits_iff
  constructor
  · intro h
    obtain ⟨hsource, -, -, -, hmemo, h⟩ := h
    obtain ⟨hlen, hall⟩ := hoperations.mp h
    exact ⟨hsource, t.memo.fits_iff.mp hmemo, hlen, hall⟩
  · intro h
    obtain ⟨hsource, hmemo, hlen, hall⟩ := h
    exact ⟨hsource, trivial, trivial, fun _ _ => ⟨trivial, trivial⟩, t.memo.fits_iff.mpr hmemo,
      hoperations.mpr ⟨hlen, hall⟩⟩

theorem Transaction.fits_iff (t : Transaction) : Transaction.codec.Fits t ↔ t.WellFormed :=
  t.fits_codecFrom.trans (and_iff_right t.source.fits)

theorem fits_signatures (ss : List Signature) :
    signaturesCodec.Fits ss ↔ SignaturesWellFormed ss :=
  fits_array (by decide) Signature.fits_iff

theorem Payload.fits_iff (p : Payload) : Payload.codec.Fits p ↔ p.WellFormed := by
  cases p with
  | legacy tx =>
    exact fits_some.trans (tx.fits_codecFrom.trans (and_congr_left' tx.source.fits_plain))
  | plain tx => exact fits_some.trans tx.fits_iff
  | feeBump bump =>
    refine fits_some.trans ?_
    have hinner : FeeBump.innerCodec.Fits (bump.inner, bump.innerSignatures) ↔
        bump.inner.WellFormed ∧ SignaturesWellFormed bump.innerSignatures :=
      and_congr bump.inner.fits_iff (fits_signatures bump.innerSignatures)
    constructor
    · intro h
      exact hinner.mp h.2.2
    · intro h
      exact ⟨bump.feeSource.fits, trivial, hinner.mpr h⟩

theorem Envelope.fits_iff (e : Envelope) : Envelope.codec.Fits e ↔ e.WellFormed :=
  and_congr e.payload.fits_iff (fits_signatures e.signatures)

theorem ClaimAtom.fits (c : ClaimAtom) : ClaimAtom.codec.Fits c :=
  ⟨trivial, trivial, c.soldAsset.fits, trivial, c.boughtAsset.fits, trivial⟩

theorem OfferEffect.fits (e : OfferEffect) : OfferEffect.codec.Fits e := by
  cases e with
  | created offer => exact ⟨offer, rfl, trivial, trivial, offer.terms.fits, trivial⟩
  | updated offer => exact ⟨offer, rfl, trivial, trivial, offer.terms.fits, trivial⟩
  | deleted => rfl

theorem fits_claims {kind : String} (cs : List ClaimAtom) :
    (Codec.array kind unbounded ClaimAtom.codec).Fits cs ↔ cs.length < UInt32.size :=
  (fits_unbounded fun c => iff_true_intro c.fits).trans (and_iff_left fun _ _ => trivial)

theorem ne_of_toInt {code n : Int32} (h : code.toInt = n.toInt → False) : code ≠ n :=
  fun hcode => h (congrArg Int32.toInt hcode)

/-- A failure fits if its code is not that of success, where nothing else has a code of its own. -/
theorem fits_failure {α : Type} {c : Codec α} {a : α} {code : Int32} (h : ¬c.Fits a) :
    (match code.toInt with
      | 0 => c
      | _ => only a).Fits a ↔ code ≠ 0 := by
  split
  · next hcode => exact iff_of_false h fun hne => hne (Int32.toInt_inj.mp hcode)
  · next hcode => exact iff_of_true rfl (ne_of_toInt hcode)

theorem PathPaymentResult.fits_iff (r : PathPaymentResult) :
    PathPaymentResult.codec.Fits r ↔ r.WellFormed := by
  cases r with
  | success offers last =>
    refine fits_some.trans ?_
    have hlast : SimplePayment.codec.Fits last := ⟨trivial, last.asset.fits, trivial⟩
    exact (and_iff_left hlast).trans (fits_claims offers)
  | noIssuer asset => exact fits_some.trans (iff_of_true asset.fits trivial)
  | failure code =>
    rw [codec, fits_tagged]
    dsimp only [PathPaymentResult.code]
    split
    · next h => exact iff_of_false (not_fits_arm rfl) fun hne => hne.1 (Int32.toInt_inj.mp h)
    · next h => exact iff_of_false (not_fits_arm rfl) fun hne => hne.2 (Int32.toInt_inj.mp h)
    · next h₀ h₉ => exact iff_of_true rfl ⟨ne_of_toInt h₀, ne_of_toInt h₉⟩

theorem ManageOfferResult.fits_iff (r : ManageOfferResult) :
    ManageOfferResult.codec.Fits r ↔ r.WellFormed := by
  cases r with
  | success claimed offer =>
    exact fits_some.trans ((and_iff_left offer.fits).trans (fits_claims claimed))
  | failure code => exact fits_failure (not_fits_arm rfl)

theorem MergeResult.fits_iff (r : MergeResult) : MergeResult.codec.Fits r ↔ r.WellFormed := by
  cases r with
  | success balance => exact iff_of_true ⟨balance, rfl, trivial⟩ trivial
  | failure code => exact fits_failure (not_fits_arm rfl)

theorem InflationResult.fits_iff (r : InflationResult) :
    InflationResult.codec.Fits r ↔ r.WellFormed := by
  cases r with
  | success payouts =>
    refine fits_some.trans ?_
    have hpayout : ∀ p : Payout, Payout.codec.Fits p ↔ True := fun _ =>
      iff_true_intro ⟨trivial, trivial⟩
    exact (fits_unbounded hpayout).trans (and_iff_left fun _ _ => trivial)
  | failure code => exact fits_failure (not_fits_arm rfl)

theorem KindResult.fits_iff (r : KindResult) : KindResult.codec.Fits r ↔ r.WellFormed := by
  cases r with
  | pathPaymentStrictReceive r => exact fits_some.trans r.fits_iff
  | manageSellOffer r => exact fits_some.trans r.fits_iff
  | createPassiveSellOffer r => exact fits_some.trans r.fits_iff
  | accountMerge r => exact fits_some.trans r.fits_iff
  | inflation r => exact fits_some.trans r.fits_iff
  | manageBuyOffer r => exact fits_some.trans r.fits_iff
  | pathPaymentStrictSend r => exact fits_some.trans r.fits_iff
  -- the other kinds are a code and nothing else
  | _ code => exact iff_of_true ⟨code, rfl, trivial⟩ trivial

theorem OperationResult.fits_iff (r : OperationResult) :
    OperationResult.codec.Fits r ↔ r.WellFormed := by
  cases r with
  | inner r => exact fits_some.trans r.fits_iff
  | _ => exact iff_of_true rfl trivial

theorem fits_results (rs : List OperationResult) :
    OperationResult.listCodec.Fits rs ↔ ResultsWellFormed rs :=
  fits_unbounded OperationResult.fits_iff

theorem InnerResult.fits_iff (r : InnerResult) : InnerResult.codec.Fits r ↔ r.WellFormed := by
  cases r with
  | success results => exact fits_some.trans (fits_results results)
  | failed results => exact fits_some.trans (fits_results results)
  | other code =>
    rw [codec, fits_tagged]
    dsimp only [InnerResult.code]
    split
    · next h => exact iff_of_false (not_fits_arm rfl) fun hne => hne.1 (Int32.toInt_inj.mp h)
    · next h => exact iff_of_false (not_fits_arm rfl) fun hne => hne.2.1 (Int32.toInt_inj.mp h)
    · next h => exact iff_of_false id fun hne => hne.2.2.1 (Int32.toInt_inj.mp h)
    · next h => exact iff_of_false id fun hne => hne.2.2.2 (Int32.toInt_inj.mp h)
    · next h₀ h₁ h₂ h₃ =>
      exact iff_of_true rfl ⟨ne_of_toInt h₀, ne_of_toInt h₁, ne_of_toInt h₂, ne_of_toInt h₃⟩

theorem InnerResultPair.fits_iff (p : InnerResultPair) :
    InnerResultPair.codec.Fits p ↔ p.result.WellFormed :=
  (and_iff_right trivial).trans ((and_iff_right trivial).trans p.result.fits_iff)

theorem TransactionVerdict.fits_iff (v : TransactionVerdict) :
    TransactionVerdict.codec.Fits v ↔ v.WellFormed := by
  cases v with
  | feeBumpSuccess inner => exact fits_some.trans inner.fits_iff
  | feeBumpFailed inner => exact fits_some.trans inner.fits_iff
  | success results => exact fits_some.trans (fits_results results)
  | failed results => exact fits_some.trans (fits_results results)
  | other code =>
    rw [codec, fits_tagged]
    dsimp only [TransactionVerdict.code]
    split
    · next h => exact iff_of_false (not_fits_arm rfl) fun hne => hne.1 (Int32.toInt_inj.mp h)
    · next h => exact iff_of_false (not_fits_arm rfl) fun hne => hne.2.1 (Int32.toInt_inj.mp h)
    · next h => exact iff_of_false (not_fits_arm rfl) fun hne => hne.2.2.1 (Int32.toInt_inj.mp h)
    · next h => exact iff_of_false (not_fits_arm rfl) fun hne => hne.2.2.2 (Int32.toInt_inj.mp h)
    · next h₀ h₁ h₂ h₃ =>
      exact iff_of_true rfl ⟨ne_of_toInt h₀, ne_of_toInt h₁, ne_of_toInt h₂, ne_of_toInt h₃⟩

theorem ResultPair.fits_iff (p : ResultPair) : ResultPair.codec.Fits p ↔ p.WellFormed :=
  (and_iff_right trivial).trans ((and_iff_right trivial).trans p.result.verdict.fits_iff)

theorem CloseValue.fits_iff (v : CloseValue) : CloseValue.codec.Fits v ↔ v.WellFormed := by
  have hupgrades : (Codec.array "upgrades" 6 (Codec.bytes "string" 128)).Fits v.upgrades ↔
      v.upgrades.length ≤ 6 ∧ ∀ u ∈ v.upgrades, u.length ≤ 128 :=
    fits_array (by decide) fun _ => fits_bytes (by decide)
  have hsignature : signatureCodec.Fits v.signature ↔ ∀ s ∈ v.signature, s.2.length ≤ 64 := by
    cases v.signature with
    | none => exact iff_of_true rfl nofun
    | some s =>
      refine fits_some.trans ((and_iff_right trivial).trans ((fits_bytes (by decide)).trans ?_))
      simp
  constructor
  · intro h
    obtain ⟨-, -, hu, hs⟩ := h
    obtain ⟨hlen, hall⟩ := hupgrades.mp hu
    exact ⟨hlen, hall, hsignature.mp hs⟩
  · intro h
    exact ⟨trivial, trivial, hupgrades.mpr ⟨h.upgrades_le, h.upgrades⟩,
      hsignature.mpr h.signature⟩

theorem LedgerHeader.fits_iff (h : LedgerHeader) : LedgerHeader.codec.Fits h ↔ h.WellFormed := by
  have hflags : flagsCodec.Fits h.flags := by
    cases h.flags with
    | none => rfl
    | some n => exact ⟨n, rfl, trivial⟩
  constructor
  · intro hfits
    exact h.value.fits_iff.mp hfits.2.2.1
  · intro hvalue
    exact ⟨trivial, trivial, h.value.fits_iff.mpr hvalue, trivial, trivial, trivial, trivial,
      trivial, trivial, trivial, trivial, trivial, trivial, ⟨trivial, trivial, trivial, trivial⟩,
      hflags⟩

theorem HistoryEntry.fits_iff (e : HistoryEntry) : HistoryEntry.codec.Fits e ↔ e.WellFormed :=
  (and_iff_right trivial).trans e.header.fits_iff

/-! ## One to one -/

/-- Envelopes, result pairs, headers and history entries are decoded one to one: nothing is accepted
    but well-formed records, no record from two byte strings, and every well-formed record from
    one. -/
theorem decode_bijective :
    Envelope.codec.Bijective Envelope.WellFormed ∧ ResultPair.codec.Bijective ResultPair.WellFormed ∧
      LedgerHeader.codec.Bijective LedgerHeader.WellFormed ∧
      HistoryEntry.codec.Bijective HistoryEntry.WellFormed :=
  ⟨Envelope.lawful_codec.bijective Envelope.fits_iff,
    ResultPair.lawful_codec.bijective ResultPair.fits_iff,
    LedgerHeader.lawful_codec.bijective LedgerHeader.fits_iff,
    HistoryEntry.lawful_codec.bijective HistoryEntry.fits_iff⟩

end LedgerSearch
