import Mathlib
import LedgerSearch.Memory.Sample
import LedgerSearch.Proofs.Serialize.LedgerDemands

/-
  Trades as mirrored pairs. The offers that the document of an operation lists as crossed are those
  its trades are made from, whatever kind of result stands beside the operation
  (`TradeDoc.claims_eq_crossed`), and each of them gives two trades, of which the second is the
  first seen from the other side (`TradeDoc.mirrored_pairs`).
-/

namespace LedgerSearch

/-! ## The crossed offers of a document -/

/-- The offers that the result of an operation claims, whatever the operation. -/
def OperationResult.claimed (r : OperationResult) : List ClaimAtom :=
  (r.inner?.map (·.claimed)).getD []

namespace OperationOutcome

/-- Results of every kind document the offers that they claim. -/
theorem claimed_ofKind {o : OperationOutcome} (ho : o.claimed = none) (k : KindResult) :
    (o.ofKind k).claimed.getD [] = k.claimed := by
  have hnone : o.claimed.getD [] = [] := by rw [ho]; rfl
  cases k with
  | pathPaymentStrictReceive r | pathPaymentStrictSend r =>
    cases r with
    | success offers arrived => rfl
    | noIssuer asset => exact hnone
    | failure code => exact hnone
  | manageSellOffer r | createPassiveSellOffer r | manageBuyOffer r =>
    cases r with
    | success claimed effect => rfl
    | failure code => exact hnone
  | accountMerge r => cases r <;> exact hnone
  | inflation r => cases r <;> exact hnone
  | createAccount code | payment code | setOptions code | changeTrust code | allowTrust code
  | manageData code | bumpSequence code => exact hnone

theorem succeeded_ofKind (o : OperationOutcome) (k : KindResult) :
    (o.ofKind k).succeeded = o.succeeded := by
  cases k with
  | pathPaymentStrictReceive r | pathPaymentStrictSend r => cases r <;> rfl
  | manageSellOffer r | createPassiveSellOffer r | manageBuyOffer r => cases r <;> rfl
  | accountMerge r => cases r <;> rfl
  | inflation r => cases r <;> rfl
  | createAccount code | payment code | setOptions code | changeTrust code | allowTrust code
  | manageData code | bumpSequence code => rfl

theorem claimed_ofResult (r : OperationResult) : (ofResult r).claimed.getD [] = r.claimed := by
  cases r with
  | inner k => exact claimed_ofKind rfl k
  | badAuth | noAccount | notSupported | tooManySubentries | exceededWorkLimit
  | tooManySponsoring => rfl

theorem succeeded_ofResult (r : OperationResult) : (ofResult r).succeeded = r.isSuccess := by
  cases r with
  | inner k => exact succeeded_ofKind _ k
  | badAuth | noAccount | notSupported | tooManySubentries | exceededWorkLimit
  | tooManySponsoring => rfl

end OperationOutcome

/-- The crossed offers that the document of an operation lists, none where its result is no
    success. -/
def OperationDoc.crossed (doc : OperationDoc) : List ClaimAtom :=
  if doc.outcome.succeeded then doc.outcome.claimed.getD [] else []

namespace TradeDoc

/-- The trades of an operation that crosses offers are made from those that its document lists. -/
theorem claims_eq_crossed {tx : TransactionDoc} {op : Operation} {r : OperationResult}
    {position : Nat} {doc : OperationDoc}
    (hdoc : OperationDoc.ofOperation tx op (some r) position = .ok doc)
    (hkind : op.body.kind.crossesOffers = true) : claims doc.kind (some r) = doc.crossed := by
  have hbody : doc.kind = op.body.kind :=
    congrArg OperationBody.kind (Serialize.body_of_ofOperation hdoc)
  have houtcome : doc.outcome = .ofResult r := OperationDoc.outcome_ofOperation hdoc
  rw [OperationDoc.crossed, houtcome, OperationOutcome.succeeded_ofResult,
    OperationOutcome.claimed_ofResult, claims, hbody, hkind, Bool.and_true]
  rfl

/-! ## Pairs -/

/-- The trade of a crossed offer as its owner sees it, who sells to the source of the operation; its
    number is among the trades of the operation. -/
def owned (op : OperationDoc) (c : ClaimAtom) (number : UInt8) : TradeDoc where
  token := { op.token with group := EffectGroup.trade.number, index := number }
  offerId := c.offerId
  seller := c.seller
  buyer := op.source
  soldAmount := c.soldAmount
  soldAsset := c.soldAsset
  boughtAmount := c.boughtAmount
  boughtAsset := c.boughtAsset
  closeTime := op.closeTime

/-- The same trade, seen from the other side. -/
def mirror (d : TradeDoc) : TradeDoc :=
  { d with
    seller := d.buyer
    buyer := d.seller
    soldAmount := d.boughtAmount
    soldAsset := d.boughtAsset
    boughtAmount := d.soldAmount
    boughtAsset := d.soldAsset }

/-- The trades are pairs, one for each of the offers in their order, and numbered on from `last`. -/
structure Paired (op : OperationDoc) (last : Nat) (cs : List ClaimAtom) (trades : List TradeDoc) :
    Prop where
  length : trades.length = 2 * cs.length
  pair : ∀ k c, cs[k]? = some c → ∃ first second : UInt8,
    first.toNat = last + 2 * k + 1 ∧ second.toNat = last + 2 * k + 2 ∧
      trades[2 * k]? = some (owned op c first) ∧
      trades[2 * k + 1]? = some (owned op c second).mirror

theorem paired_nil (op : OperationDoc) (last : Nat) : Paired op last [] [] :=
  ⟨rfl, fun _ _ h => nomatch h⟩

theorem Paired.cons {op : OperationDoc} {last : Nat} {cs : List ClaimAtom}
    {trades : List TradeDoc} {c : ClaimAtom} {first second : UInt8}
    (h : Paired op (last + 2) cs trades) (hfirst : first.toNat = last + 1)
    (hsecond : second.toNat = last + 2) :
    Paired op last (c :: cs) (owned op c first :: (owned op c second).mirror :: trades) := by
  refine ⟨?_, fun k c' hc => ?_⟩
  · rw [List.length_cons, List.length_cons, List.length_cons, h.length]
    omega
  cases k with
  | zero =>
    obtain rfl := Option.some.inj hc
    exact ⟨first, second, hfirst, hsecond, rfl, rfl⟩
  | succ k =>
    obtain ⟨first', second', hfirst', hsecond', howner, htaker⟩ := h.pair k c' hc
    exact ⟨first', second', by omega, by omega, howner, htaker⟩

theorem ne_zero_of_nextEffectIndex {last index : UInt8} (h : nextEffectIndex last = .ok index) :
    index ≠ 0 := by
  intro hzero
  have hnext := nextEffectIndex_eq_ok h
  rw [hzero, UInt8.toNat_zero] at hnext
  omega

theorem paired_of_claimsAfter {op : OperationDoc} {last : UInt8} {cs : List ClaimAtom}
    {trades : List TradeDoc}
    (h : ofClaimsAfter op ((Token.ofGroup .trade).merge op.token) last cs = .ok trades) :
    Paired op last.toNat cs trades := by
  induction cs generalizing last trades with
  | nil =>
    obtain rfl := Except.ok.inj h
    exact paired_nil op _
  | cons c rest ih =>
    rw [ofClaimsAfter] at h
    obtain ⟨first, h₁, h⟩ := Outcome.bind_eq_ok.mp h
    obtain ⟨second, h₂, h⟩ := Outcome.bind_eq_ok.mp h
    obtain ⟨more, hm, h⟩ := Outcome.bind_eq_ok.mp h
    obtain rfl := Except.ok.inj h
    have hfirst := nextEffectIndex_eq_ok h₁
    have hsecond : second.toNat = last.toNat + 2 := by rw [nextEffectIndex_eq_ok h₂, hfirst]
    rw [Token.merge_effect (ne_zero_of_nextEffectIndex h₁),
      Token.merge_effect (ne_zero_of_nextEffectIndex h₂)]
    exact (hsecond ▸ ih hm).cons hfirst hsecond

theorem paired_of_result {op : OperationDoc} {r : OperationResult} {trades : List TradeDoc}
    (h : ofResult op r = .ok trades) : Paired op 0 (claims op.kind (some r)) trades := by
  unfold ofResult at h
  unfold claims
  dsimp only
  split at h
  · next hcrosses =>
    rw [if_pos hcrosses]
    cases hinner : r.inner? with
    | none =>
      rw [hinner] at h
      obtain rfl := Except.ok.inj h
      exact paired_nil op 0
    | some k =>
      rw [hinner] at h
      exact paired_of_claimsAfter h
  · next hcrosses =>
    rw [if_neg hcrosses]
    obtain rfl := Except.ok.inj h
    exact paired_nil op 0

/-- Up to 127 offers have their trades, two for each. -/
theorem exists_ofResult (op : OperationDoc) {r : OperationResult} (h : r.claimed.length ≤ 127) :
    ∃ trades, ofResult op r = .ok trades := by
  have hclaims : (claims op.kind (some r)).length ≤ r.claimed.length := by
    unfold claims
    dsimp only
    split
    · exact Nat.le_refl _
    · exact Nat.zero_le _
  refine (meets_ofResult op r).exists_ok fun d hd => ?_
  obtain ⟨k, -, hle, rfl⟩ := mem_effectPlaces.mp hd
  show k ≤ 255
  omega

/-- An operation of a kind that crosses offers, with a result of any kind that claims at most 127,
    has two trades for each of the offers that its document lists, and no others: as the owner of
    the offer sees it, who sells to the source of the operation, and the same seen from the other
    side. They are in the order of the offers and numbered 1, 2, 3, … among the trades of the
    operation. -/
theorem mirrored_pairs {tx : TransactionDoc} {op : Operation} {r : OperationResult}
    {position : Nat} {doc : OperationDoc}
    (hdoc : OperationDoc.ofOperation tx op (some r) position = .ok doc)
    (hkind : op.body.kind.crossesOffers = true) (hmany : r.claimed.length ≤ 127) :
    ∃ trades, ofResult doc r = .ok trades ∧ trades.length = 2 * doc.crossed.length ∧
      ∀ k c, doc.crossed[k]? = some c → ∃ first second : UInt8,
        first.toNat = 2 * k + 1 ∧ second.toNat = 2 * k + 2 ∧
        trades[2 * k]? = some (owned doc c first) ∧
        trades[2 * k + 1]? = some (owned doc c second).mirror := by
  obtain ⟨trades, htrades⟩ := exists_ofResult doc hmany
  have hpaired := paired_of_result htrades
  rw [claims_eq_crossed hdoc hkind] at hpaired
  refine ⟨trades, htrades, hpaired.length, fun k c hc => ?_⟩
  obtain ⟨first, second, hfirst, hsecond, hpair⟩ := hpaired.pair k c hc
  exact ⟨first, second, by omega, by omega, hpair⟩

open Memory.Sample in
/-- The result of a path payment that crossed offers of two accounts. -/
def twoCrossed : OperationResult :=
  .inner (.pathPaymentStrictReceive (.success
    [⟨⟨alice⟩, 8, .native, 20, .native, 40⟩, ⟨⟨bob⟩, 9, .native, 10, .native, 30⟩]
    ⟨⟨bob⟩, .native, 30⟩))

/-- An offer to sell, beside the result of a path payment: four trades. -/
theorem mirrored_pairs_mismatched :
    ∃ (tx : TransactionDoc) (op : Operation) (doc : OperationDoc) (trades : List TradeDoc),
      OperationDoc.ofOperation tx op (some twoCrossed) 0 = .ok doc ∧
      op.body.kind = .manageSellOffer ∧ twoCrossed.claimed.length ≤ 127 ∧
      ofResult doc twoCrossed = .ok trades ∧
      trades.map (·.soldAmount) = [20, 40, 10, 30] := by
  have hdoc : ∃ doc, OperationDoc.ofOperation
      (.ofRow (Memory.Sample.transactionRow 7 1) 1 ⟨0, Nat.zero_le _⟩)
      ⟨none, .manageSellOffer ⟨.native, .native, 30, ⟨1, 2⟩⟩ 0⟩ (some twoCrossed) 0 = .ok doc :=
    ⟨_, rfl⟩
  obtain ⟨doc, hdoc⟩ := hdoc
  have hmany : twoCrossed.claimed.length ≤ 127 := by decide
  have hcrossed : doc.crossed = twoCrossed.claimed := by
    obtain rfl := Except.ok.inj hdoc
    rfl
  obtain ⟨trades, htrades, hlength, hpair⟩ := mirrored_pairs hdoc rfl hmany
  refine ⟨_, _, doc, trades, hdoc, rfl, hmany, htrades, ?_⟩
  rw [hcrossed] at hlength hpair
  obtain ⟨_, _, -, -, h₀, h₁⟩ := hpair 0 _ rfl
  obtain ⟨_, _, -, -, h₂, h₃⟩ := hpair 1 _ rfl
  match trades, hlength with
  | [a, b, c, d], _ =>
    obtain rfl := Option.some.inj h₀
    obtain rfl := Option.some.inj h₁
    obtain rfl := Option.some.inj h₂
    obtain rfl := Option.some.inj h₃
    rfl

end TradeDoc

end LedgerSearch
