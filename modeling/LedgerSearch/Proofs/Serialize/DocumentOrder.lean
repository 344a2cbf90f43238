import Mathlib
import LedgerSearch.Proofs.Token.Effect

/-
  The documents of a run of ledgers are in the order of their tokens. Every part of a ledger has a
  range of token numbers to itself (`Ascending`), and the parts are emitted in the order of their
  ranges: `ascending_ofLedgers`.
-/

namespace LedgerSearch

/-! ## Ranges of tokens -/

namespace Token

/-- The numbers of the tokens strictly increase, from `lo` on and below `hi`. -/
structure Ascending (lo hi : Nat) (ts : List Token) : Prop where
  increasing : ts.Pairwise fun s t => s.number < t.number
  within : ∀ t ∈ ts, lo ≤ t.number ∧ t.number < hi

theorem ascending_nil (lo hi : Nat) : Ascending lo hi [] :=
  ⟨.nil, fun _ h => nomatch h⟩

theorem Ascending.mono {lo hi lo' hi' : Nat} {ts : List Token} (h : Ascending lo hi ts)
    (hl : lo' ≤ lo) (hh : hi ≤ hi') : Ascending lo' hi' ts := by
  refine ⟨h.increasing, fun t ht => ?_⟩
  have := h.within t ht
  omega

theorem Ascending.append {lo mid hi : Nat} {xs ys : List Token} (hx : Ascending lo mid xs)
    (hy : Ascending mid hi ys) (hl : lo ≤ mid) (hh : mid ≤ hi) : Ascending lo hi (xs ++ ys) := by
  constructor
  · refine List.pairwise_append.mpr ⟨hx.increasing, hy.increasing, fun s hs t ht => ?_⟩
    exact Nat.lt_of_lt_of_le (hx.within s hs).2 (hy.within t ht).1
  · intro t ht
    rcases List.mem_append.mp ht with ht | ht
    · have := hx.within t ht; omega
    · have := hy.within t ht; omega

theorem Ascending.cons {t : Token} {hi : Nat} {ts : List Token}
    (h : Ascending (t.number + 1) hi ts) (hh : t.number < hi) :
    Ascending t.number hi (t :: ts) := by
  constructor
  · refine List.pairwise_cons.mpr ⟨fun s hs => ?_, h.increasing⟩
    have := (h.within s hs).1
    omega
  · intro s hs
    rcases List.mem_cons.mp hs with rfl | hs
    · omega
    · have := h.within s hs; omega

/-- The place of a transaction or operation itself, none of its effects. -/
def IsPlace (t : Token) : Prop := t.group = 0 ∧ t.index = 0

theorem number_effect {place : Token} (h : place.IsPlace) (g i : UInt8) :
    ({ place with group := g, index := i } : Token).number =
      place.number + 256 * g.toNat + i.toNat := by
  obtain ⟨hg, hi⟩ := h
  simp only [number, hg, hi, UInt8.toNat_zero]
  omega

/-- The effects of one group at a place have a range of their own. -/
theorem ascending_of_numbered {place : Token} (h : place.IsPlace) {g : EffectGroup}
    {ts : List Token} (hts : Numbered ((ofGroup g).merge place) 0 ts) :
    Ascending (place.number + 256 * g.number.toNat + 1)
      (place.number + 256 * g.number.toNat + 256) ts := by
  obtain ⟨he, hl⟩ := hts
  have hn : ∀ i, 0 < i → i ≤ 255 →
      ((ofIndex (UInt8.ofNat i)).merge ((ofGroup g).merge place)).number =
        place.number + 256 * g.number.toNat + i := by
    intro i hpos hle
    have hi : (UInt8.ofNat i).toNat = i := by
      rw [UInt8.toNat_ofNat', Nat.mod_eq_of_lt (by omega)]
    have hne : UInt8.ofNat i ≠ 0 := by
      intro h0
      rw [h0, UInt8.toNat_zero] at hi
      omega
    rw [merge_effect hne, number_effect h, hi]
  rw [UInt8.toNat_zero, Nat.zero_add] at hl
  rw [he]
  constructor
  · rw [effectTokens, List.pairwise_map]
    refine List.Pairwise.imp_of_mem ?_ (List.pairwise_lt_range' 1)
    intro a b ha hb hab
    simp only [List.mem_range'_1, UInt8.toNat_zero] at ha hb
    rw [hn a (by omega) (by omega), hn b (by omega) (by omega)]
    omega
  · intro t ht
    obtain ⟨i, hi, rfl⟩ := List.mem_map.mp ht
    simp only [List.mem_range'_1, UInt8.toNat_zero] at hi
    rw [hn i (by omega) (by omega)]
    omega

/-- A token in the range of a place has the fields of the place. -/
theorem fields_of_number {place t : Token} (h : place.IsPlace) (hl : place.number ≤ t.number)
    (hh : t.number < place.number + 65536) :
    t.ledger = place.ledger ∧ t.transaction = place.transaction ∧
      t.operation = place.operation := by
  obtain ⟨hg, hi⟩ := h
  have := t.transaction.toNat_lt
  have := t.operation.toNat_lt
  have := t.group.toNat_lt
  have := t.index.toNat_lt
  have := place.transaction.toNat_lt
  have := place.operation.toNat_lt
  simp only [number, hg, hi, UInt8.toNat_zero] at hl hh
  refine ⟨UInt32.toNat_inj.mp ?_, UInt8.toNat_inj.mp ?_, UInt8.toNat_inj.mp ?_⟩ <;> omega

end Token

open Token

/-! ## Ranges of the parts of a ledger -/

/-- The tokens of documents. -/
abbrev tokens (ds : List Document) : List Token := ds.map Document.token

namespace Serialize

theorem ascending_balances {place : Token} (h : place.IsPlace) {g : EffectGroup}
    {source : BalanceSource} {closeTime : CloseTime} {changes : List EntryChange}
    {ds : List Document} {s : Stats}
    (hb : balances ⟨(ofGroup g).merge place, source, closeTime⟩ changes = ⟨ds, .ok s⟩) :
    Ascending (place.number + 256 * g.number.toNat + 1)
      (place.number + 256 * g.number.toNat + 256) (tokens ds) := by
  obtain ⟨docs, hd, -, rfl⟩ := balances_eq_ok.mp hb
  rw [tokens, List.map_map]
  exact ascending_of_numbered h (BalanceDoc.numbered_ofChangesAfter hd)

theorem ascending_effectsOf {ledger : LedgerRow} {fees : List FeeRow} {row : TransactionRow}
    {tx : TransactionDoc} {ds : List Document} {s : Stats}
    (h : effectsOf ledger fees row tx = ⟨ds, .ok s⟩) :
    Ascending (tx.token.number + 1) (tx.token.number + 65536) (tokens ds) := by
  have hp : tx.token.IsPlace := ⟨rfl, rfl⟩
  have hfee : EffectGroup.fee.number.toNat = 1 := rfl
  have hoffer : EffectGroup.offer.number.toNat = 2 := rfl
  rcases effectsOf_cases h with ⟨rfl, -⟩ | h
  · exact ascending_nil _ _
  · obtain ⟨ds₁, fee, events, hf, he, -, rfl⟩ := transactionEffects_eq_ok.mp h
    have h₁ : Ascending (tx.token.number + 1) (tx.token.number + 512) (tokens ds₁) := by
      rcases feeBalances_cases hf with ⟨rfl, -⟩ | ⟨_, hf⟩
      · exact ascending_nil _ _
      · exact (ascending_balances hp hf).mono (by omega) (by omega)
    have h₂ : Ascending (tx.token.number + 512) (tx.token.number + 65536)
        (tokens (events.map .offer)) := by
      rw [tokens, List.map_map]
      have := ascending_of_numbered hp (OfferEvent.numbered_ofChangesAfter he)
      exact this.mono (by omega) (by omega)
    rw [tokens, List.map_append]
    exact h₁.append h₂ (by omega) (by omega)

theorem ascending_trades {doc : OperationDoc} {result : Option OperationResult}
    {ds : List Document} {s : Stats} (h : trades doc result = ⟨ds, .ok s⟩) :
    Ascending (doc.token.number + 1024) (doc.token.number + 1280) (tokens ds) := by
  have hp : doc.token.IsPlace := ⟨rfl, rfl⟩
  have htrade : EffectGroup.trade.number.toNat = 4 := rfl
  rcases trades_eq_ok.mp h with ⟨-, rfl, -⟩ | ⟨r, docs, -, hd, -, rfl⟩
  · exact ascending_nil _ _
  · rw [tokens, List.map_map]
    have := ascending_of_numbered hp (TradeDoc.numbered_ofResult hd)
    exact this.mono (by omega) (by omega)

theorem ascending_signers {doc : OperationDoc} {ds : List Document} {s : Stats}
    (h : signers doc = ⟨ds, .ok s⟩) :
    Ascending (doc.token.number + 1280) (doc.token.number + 65536) (tokens ds) := by
  obtain ⟨rfl, -⟩ := signers_eq_ok.mp h
  cases hs : SignerDoc.ofOperation? doc with
  | none => exact ascending_nil _ _
  | some d =>
    have ht : d.token = { doc.token with group := EffectGroup.signer.number, index := 1 } := by
      unfold SignerDoc.ofOperation? at hs
      split at hs
      · obtain ⟨signer, -, rfl⟩ := Option.map_eq_some_iff.mp hs
        exact merge_effect_assoc (by decide) .signer doc.token
      · exact nomatch hs
    have hn : d.token.number = doc.token.number + 256 * EffectGroup.signer.number.toNat +
        (1 : UInt8).toNat := by
      rw [ht]
      exact number_effect ⟨rfl, rfl⟩ _ _
    have hsigner : EffectGroup.signer.number.toNat = 5 := rfl
    have hone : (1 : UInt8).toNat = 1 := rfl
    refine ⟨List.pairwise_singleton _ _, fun t h => ?_⟩
    obtain rfl : t = d.token := List.mem_singleton.mp h
    omega

theorem ascending_effectsAt {row : TransactionRow} {position : Nat} {doc : OperationDoc}
    {ds : List Document} {s : Stats} (h : effectsAt row position doc = ⟨ds, .ok s⟩) :
    Ascending (doc.token.number + 1) (doc.token.number + 65536) (tokens ds) := by
  have hp : doc.token.IsPlace := ⟨rfl, rfl⟩
  have hbalance : EffectGroup.balance.number.toNat = 3 := rfl
  rcases effectsAt_cases h with ⟨rfl, -⟩ | h
  · exact ascending_nil _ _
  · obtain ⟨ds₁, moved, ds₂, traded, ds₃, signed, hm, ht, hs, -, rfl⟩ :=
      operationEffects_eq_ok.mp h
    have h₁ : Ascending (doc.token.number + 1) (doc.token.number + 1024) (tokens ds₁) := by
      rcases movedBalances_cases hm with ⟨rfl, -⟩ | ⟨_, hm⟩
      · exact ascending_nil _ _
      · exact (ascending_balances hp hm).mono (by omega) (by omega)
    rw [tokens, List.map_append, List.map_append]
    refine h₁.append ?_ (by omega) (by omega)
    exact (ascending_trades ht).append (ascending_signers hs) (by omega) (by omega)

theorem number_ofOperation (seq : UInt32) (tx op : UInt8) :
    (Token.ofOperation seq tx op).number =
      (Token.ofTransaction seq tx).number + op.toNat * 65536 := by
  simp only [Token.ofOperation, Token.ofTransaction, number, UInt8.toNat_zero]
  omega

theorem number_ofTransaction (seq : UInt32) (tx : UInt8) :
    (Token.ofTransaction seq tx).number = (Token.ofLedger seq).number + tx.toNat * 16777216 := by
  simp only [Token.ofTransaction, Token.ofLedger, number, UInt8.toNat_zero]
  omega

theorem number_ofLedger (seq : UInt32) :
    (Token.ofLedger seq).number = seq.toNat * 4294967296 := by
  simp only [Token.ofLedger, number, UInt8.toNat_zero]
  omega

theorem ascending_operationsFrom {row : TransactionRow} {tx : TransactionDoc} {position : Nat}
    {ops : List Operation} {ds : List Document} {s : Stats}
    (h : operationsFrom row tx position ops = ⟨ds, .ok s⟩) :
    Ascending (tx.token.number + (position + 1) * 65536) (tx.token.number + 16777216)
      (tokens ds) := by
  induction ops generalizing position ds s with
  | nil =>
    obtain ⟨rfl, -⟩ := Emit.pure_eq_ok.mp h
    exact ascending_nil _ _
  | cons op rest ih =>
    obtain ⟨doc, ds₁, effects, ds₂, more, hd, he, hr, -, rfl⟩ := operationsFrom_cons_eq_ok.mp h
    obtain ⟨order, ho, ht⟩ := OperationDoc.ofOperation_eq_ok hd
    have hlt := order.toNat_lt
    have hn : doc.token.number = tx.token.number + (position + 1) * 65536 := by
      rw [ht, number_ofOperation, ho]
      rfl
    have hmore : Ascending (doc.token.number + 65536) (tx.token.number + 16777216) (tokens ds₂) :=
      (ih hr).mono (by omega) (Nat.le_refl _)
    have hin := (ascending_effectsAt he).append hmore (by omega) (by omega)
    rw [← hn, tokens, List.map_cons, List.map_append]
    exact Ascending.cons hin (by omega)

theorem ascending_transaction {ledger : LedgerRow} {fees : List FeeRow} {position : Nat}
    {row : TransactionRow} {ds : List Document} {s : Stats} (hseq : row.seq = ledger.seq)
    (h : transaction ledger fees position row = ⟨ds, .ok s⟩) :
    position + 1 < 256 ∧
    Ascending ((Token.ofLedger ledger.seq).number + (position + 1) * 16777216)
      ((Token.ofLedger ledger.seq).number + (position + 2) * 16777216) (tokens ds) := by
  obtain ⟨order, ds₁, effects, ds₂, operations, ho, he, hr, -, rfl⟩ := transaction_eq_ok.mp h
  have hpos := orderOfPosition_eq_ok ho
  have hlt := order.toNat_lt
  have hn : (TransactionDoc.ofRow row order ledger.closeTime).token.number =
      (Token.ofLedger ledger.seq).number + (position + 1) * 16777216 := by
    rw [← hseq, ← hpos, ← number_ofTransaction]
    rfl
  have hin := (ascending_effectsOf he).append (ascending_operationsFrom hr) (by omega) (by omega)
  refine ⟨by omega, ?_⟩
  rw [← hn, tokens, List.map_cons, List.map_append]
  exact (Ascending.cons hin (by omega)).mono (Nat.le_refl _) (by omega)

theorem ascending_transactionsFrom {ledger : LedgerRow} {fees : List FeeRow} {position : Nat}
    {txs : List TransactionRow} {ds : List Document} {s : Stats}
    (hseq : ∀ tx ∈ txs, tx.seq = ledger.seq)
    (h : transactionsFrom ledger fees position txs = ⟨ds, .ok s⟩) :
    Ascending ((Token.ofLedger ledger.seq).number + (position + 1) * 16777216)
      ((Token.ofLedger ledger.seq).number + 4294967296) (tokens ds) := by
  induction txs generalizing position ds s with
  | nil =>
    obtain ⟨rfl, -⟩ := Emit.pure_eq_ok.mp h
    exact ascending_nil _ _
  | cons row rest ih =>
    obtain ⟨ds₁, this, ds₂, more, ht, hr, -, rfl⟩ := transactionsFrom_cons_eq_ok.mp h
    obtain ⟨hlt, h₁⟩ := ascending_transaction (hseq row (by simp)) ht
    have h₂ := ih (fun tx htx => hseq tx (List.mem_cons_of_mem _ htx)) hr
    rw [tokens, List.map_append]
    exact h₁.append h₂ (by omega) (by omega)

theorem ascending_ledger {row : LedgerRow} {txs : List TransactionRow} {fees : List FeeRow}
    {ds : List Document} {s : Stats} (hseq : ∀ tx ∈ txs, tx.seq = row.seq)
    (h : ledger row txs fees = ⟨ds, .ok s⟩) :
    Ascending (Token.ofLedger row.seq).number ((Token.ofLedger row.seq).number + 4294967296)
      (tokens ds) := by
  obtain ⟨doc, ds₁, rest, hd, hr, -, rfl⟩ := ledger_eq_ok.mp h
  have h₁ := ascending_transactionsFrom hseq hr
  rw [tokens, List.map_cons, ← LedgerDoc.ofRows_eq_ok hd] at *
  exact Ascending.cons (h₁.mono (by simp) (Nat.le_refl _)) (by simp)

end Serialize

/-! ## Runs of ledgers -/

theorem Rows.seq_of_mem_transactionsOf {rows : Rows} {seq : UInt32} {tx : TransactionRow}
    (h : tx ∈ rows.transactionsOf seq) : tx.seq = seq := by
  simpa using (List.mem_filter.mp h).2

namespace Serialized

theorem documents_append (s t : Serialized) : (s ++ t).documents = s.documents ++ t.documents :=
  rfl

theorem ascending_ofLedger {rows : Rows} {row : LedgerRow} {s : Serialized}
    (h : ofLedger row (rows.transactionsOf row.seq) (rows.feesOf row.seq) = .ok s) :
    Ascending (row.seq.toNat * 4294967296) ((row.seq.toNat + 1) * 4294967296)
      (tokens s.documents) := by
  rcases ofLedger_eq_ok.mp h with ⟨ds, stats, hl, rfl⟩ | ⟨ds, field, value, hl, rfl⟩
  · have := Serialize.ascending_ledger (fun tx => Rows.seq_of_mem_transactionsOf) hl
    rw [Serialize.number_ofLedger] at this
    exact this.mono (Nat.le_refl _) (by omega)
  · exact ascending_nil _ _

/-- The documents of ledgers of increasing sequences are in the order of their tokens. -/
theorem ascending_ofLedgers {rows : Rows} {ledgers : List LedgerRow} {s : Serialized} {m : Nat}
    (hm : ∀ row ∈ ledgers, m ≤ row.seq.toNat) (hl : (ledgers.map (·.seq)).Pairwise (· < ·))
    (h : ofLedgers rows ledgers = (s, .ok ())) :
    Ascending (m * 4294967296) UInt64.size (tokens s.documents) := by
  induction ledgers generalizing s m with
  | nil =>
    obtain ⟨rfl, -⟩ := Prod.mk.injEq .. ▸ h
    exact ascending_nil _ _
  | cons row rest ih =>
    obtain ⟨first, more, hf, hr, rfl⟩ := ofLedgers_cons_eq_ok.mp h
    rw [List.map_cons, List.pairwise_cons] at hl
    have hnext : ∀ r ∈ rest, row.seq.toNat + 1 ≤ r.seq.toNat := fun r hr =>
      UInt32.lt_iff_toNat_lt.mp (hl.1 r.seq (List.mem_map_of_mem hr))
    have hseq := row.seq.toNat_lt
    have hrow := hm row (by simp)
    rw [documents_append, tokens, List.map_append]
    refine ((ascending_ofLedger hf).mono ?_ (Nat.le_refl _)).append (ih hnext hl.2 hr) ?_ ?_
    · exact Nat.mul_le_mul_right _ hrow
    · omega
    · unfold UInt64.size; omega

end Serialized

end LedgerSearch
