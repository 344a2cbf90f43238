import Mathlib
import LedgerSearch.Proofs.Serialize.Emission
import LedgerSearch.Proofs.Token.Number

/-
  The tokens of effects. An extractor numbers its documents 1, 2, 3, … over one base
  (`effectTokens`), and never past 255; merging a number and a group onto a place sets these two
  fields of the place and no other (`merge_effect`).
-/

namespace LedgerSearch

/-! ## Merging -/

namespace Token

theorem pick_zero {n : Type} [DecidableEq n] [OfNat n 0] (base : n) : pick 0 base = base := by
  simp [pick]

theorem pick_of_ne_zero {n : Type} [DecidableEq n] [OfNat n 0] {own : n} (h : own ≠ 0) (base : n) :
    pick own base = own := by
  simp [pick, h]

theorem number_ne_zero (g : EffectGroup) : g.number ≠ 0 := by
  cases g <;> decide

theorem merge_group (g : EffectGroup) (place : Token) :
    (ofGroup g).merge place = { place with group := g.number } := by
  simp only [merge, ofGroup, pick_zero, pick_of_ne_zero (number_ne_zero g)]

theorem merge_index {i : UInt8} (h : i ≠ 0) (base : Token) :
    (ofIndex i).merge base = { base with index := i } := by
  simp only [merge, ofIndex, pick_zero, pick_of_ne_zero h]

theorem merge_effect {i : UInt8} (h : i ≠ 0) (g : EffectGroup) (place : Token) :
    (ofIndex i).merge ((ofGroup g).merge place) =
      { place with group := g.number, index := i } := by
  rw [merge_index h, merge_group]

/-- The order in which number and group are merged makes no difference. -/
theorem merge_effect_assoc {i : UInt8} (h : i ≠ 0) (g : EffectGroup) (place : Token) :
    ((ofIndex i).merge (ofGroup g)).merge place =
      { place with group := g.number, index := i } := by
  simp only [merge, ofIndex, ofGroup, pick_zero, pick_of_ne_zero h,
    pick_of_ne_zero (number_ne_zero g)]

end Token

/-! ## Counters -/

theorem checkedAdd_eq_ok {size a b n : Nat} :
    checkedAdd size a b = .ok n ↔ a + b < size ∧ a + b = n := by
  unfold checkedAdd
  split <;> simp [*]

theorem orderOfPosition_eq_ok {field : String} {position : Nat} {order : UInt8}
    (h : orderOfPosition field position = .ok order) : order.toNat = position + 1 := by
  unfold orderOfPosition at h
  rw [Outcome.bind_eq_ok] at h
  obtain ⟨n, hn, h⟩ := h
  obtain ⟨-, rfl⟩ := checkedAdd_eq_ok.mp hn
  split at h
  · next hlt =>
    obtain rfl : UInt8.ofNat (position + 1) = order := Except.ok.inj h
    rw [UInt8.toNat_ofNat', Nat.mod_eq_of_lt hlt]
  · exact nomatch h

theorem nextEffectIndex_eq_ok {last index : UInt8} (h : nextEffectIndex last = .ok index) :
    index.toNat = last.toNat + 1 := by
  unfold nextEffectIndex at h
  split at h
  · exact nomatch h
  · next hne =>
    obtain rfl : last + 1 = index := Except.ok.inj h
    have := last.toNat_lt
    have : last.toNat ≠ 255 := fun he => hne (UInt8.toNat_inj.mp he)
    rw [UInt8.toNat_add, UInt8.toNat_one]
    omega

/-- `n` tokens over a base with the effect indexes that follow `last`. -/
def effectTokens (base : Token) (last n : Nat) : List Token :=
  (List.range' (last + 1) n).map fun i => (Token.ofIndex (UInt8.ofNat i)).merge base

/-- The tokens are numbered over the base from `last` on, and the numbers fit their field. -/
def Numbered (base : Token) (last : UInt8) (ts : List Token) : Prop :=
  ts = effectTokens base last.toNat ts.length ∧ last.toNat + ts.length ≤ 255

theorem numbered_nil (base : Token) (last : UInt8) : Numbered base last [] := by
  have := last.toNat_lt
  exact ⟨rfl, by simp only [List.length_nil]; omega⟩

theorem numbered_cons {base : Token} {last index : UInt8} {ts : List Token}
    (hi : nextEffectIndex last = .ok index) (h : Numbered base index ts) :
    Numbered base last ((Token.ofIndex index).merge base :: ts) := by
  have hn := nextEffectIndex_eq_ok hi
  obtain ⟨he, hl⟩ := h
  constructor
  · rw [effectTokens, List.length_cons, List.range'_succ, List.map_cons, ← hn, UInt8.ofNat_toNat]
    exact congrArg _ he
  · rw [List.length_cons]
    omega

/-! ## Extractors -/

theorem BalanceDoc.numbered_ofChangesAfter {c : Context} {seen : List (Holding × Int64)}
    {last : UInt8} {changes : List EntryChange} {docs : List BalanceDoc}
    (h : ofChangesAfter c seen last changes = .ok docs) :
    Numbered c.base last (docs.map (·.token)) := by
  induction changes generalizing seen last docs with
  | nil =>
    obtain rfl := Except.ok.inj h
    exact numbered_nil _ _
  | cons change rest ih =>
    cases change with
    | removed key => exact ih (by simpa [ofChangesAfter] using h)
    | state e =>
      rw [ofChangesAfter] at h
      split at h <;> exact ih h
    | created e =>
      rw [ofChangesAfter] at h
      split at h
      · exact ih h
      · obtain ⟨index, hi, h⟩ := Outcome.bind_eq_ok.mp h
        obtain ⟨more, hm, h⟩ := Outcome.bind_eq_ok.mp h
        obtain rfl := Except.ok.inj h
        exact numbered_cons hi (ih hm)
    | updated e =>
      rw [ofChangesAfter] at h
      split at h
      · exact ih h
      · obtain ⟨diff, -, h⟩ := Outcome.bind_eq_ok.mp h
        split at h
        · exact ih h
        · obtain ⟨index, hi, h⟩ := Outcome.bind_eq_ok.mp h
          obtain ⟨more, hm, h⟩ := Outcome.bind_eq_ok.mp h
          obtain rfl := Except.ok.inj h
          exact numbered_cons hi (ih hm)

theorem OfferEvent.numbered_ofChangesAfter {c : Context} {last : UInt8}
    {changes : List EntryChange} {events : List OfferEvent}
    (h : ofChangesAfter c last changes = .ok events) :
    Numbered c.base last (events.map (·.token)) := by
  induction changes generalizing last events with
  | nil =>
    obtain rfl := Except.ok.inj h
    exact numbered_nil _ _
  | cons change rest ih =>
    rw [ofChangesAfter] at h
    split at h
    · exact ih h
    · obtain ⟨index, hi, h⟩ := Outcome.bind_eq_ok.mp h
      obtain ⟨more, hm, h⟩ := Outcome.bind_eq_ok.mp h
      obtain rfl := Except.ok.inj h
      exact numbered_cons hi (ih hm)

theorem TradeDoc.numbered_ofClaimsAfter {op : OperationDoc} {base : Token} {last : UInt8}
    {claims : List ClaimAtom} {docs : List TradeDoc}
    (h : ofClaimsAfter op base last claims = .ok docs) :
    Numbered base last (docs.map (·.token)) := by
  induction claims generalizing last docs with
  | nil =>
    obtain rfl := Except.ok.inj h
    exact numbered_nil _ _
  | cons claim rest ih =>
    rw [ofClaimsAfter] at h
    obtain ⟨first, h₁, h⟩ := Outcome.bind_eq_ok.mp h
    obtain ⟨second, h₂, h⟩ := Outcome.bind_eq_ok.mp h
    obtain ⟨more, hm, h⟩ := Outcome.bind_eq_ok.mp h
    obtain rfl := Except.ok.inj h
    exact numbered_cons h₁ (numbered_cons h₂ (ih hm))

theorem TradeDoc.numbered_ofResult {op : OperationDoc} {result : OperationResult}
    {docs : List TradeDoc} (h : ofResult op result = .ok docs) :
    Numbered ((Token.ofGroup .trade).merge op.token) 0 (docs.map (·.token)) := by
  unfold ofResult at h
  split at h
  · split at h
    · exact numbered_ofClaimsAfter h
    · obtain rfl := Except.ok.inj h
      exact numbered_nil _ _
  · obtain rfl := Except.ok.inj h
    exact numbered_nil _ _

theorem OperationDoc.ofOperation_eq_ok {tx : TransactionDoc} {op : Operation}
    {result : Option OperationResult} {position : Nat} {doc : OperationDoc}
    (h : ofOperation tx op result position = .ok doc) :
    ∃ order : UInt8, order.toNat = position + 1 ∧
      doc.token = .ofOperation tx.seq tx.order order := by
  obtain ⟨order, ho, h⟩ := Outcome.bind_eq_ok.mp h
  obtain rfl := Except.ok.inj h
  exact ⟨order, orderOfPosition_eq_ok ho, rfl⟩

theorem OperationDoc.outcome_ofOperation {tx : TransactionDoc} {op : Operation}
    {result : Option OperationResult} {position : Nat} {doc : OperationDoc}
    (h : ofOperation tx op result position = .ok doc) :
    doc.outcome = (result.map OperationOutcome.ofResult).getD {} := by
  obtain ⟨order, -, h⟩ := Outcome.bind_eq_ok.mp h
  obtain rfl := Except.ok.inj h
  rfl

theorem LedgerDoc.ofRows_eq_ok {row : LedgerRow} {txs : List TransactionRow} {doc : LedgerDoc}
    (h : ofRows row txs = .ok doc) : doc.token = .ofLedger row.seq := by
  obtain ⟨operations, -, h⟩ := Outcome.bind_eq_ok.mp h
  obtain ⟨failed, -, h⟩ := Outcome.bind_eq_ok.mp h
  obtain rfl := Except.ok.inj h
  rfl

end LedgerSearch
