import Mathlib
import LedgerSearch.Proofs.Serialize.Filing

/-
  What a successful emission wrote, part by part. `Emit.bind_eq_ok` takes a sequence apart; from it
  each function of the serializer has one lemma that says what it emits when it succeeds, and later
  proofs use these lemmas only.
-/

namespace LedgerSearch

theorem Outcome.bind_eq_ok {α β : Type} {x : Outcome α} {f : α → Outcome β} {b : β} :
    (x >>= f) = .ok b ↔ ∃ a, x = .ok a ∧ f a = .ok b := by
  cases x <;> simp [bind, Except.bind]

namespace Emit

variable {α β : Type}

theorem bind_eq_ok {x : Emit α} {f : α → Emit β} {ds : List Document} {b : β} :
    (x >>= f) = ⟨ds, .ok b⟩ ↔
      ∃ ds₁ a ds₂, x = ⟨ds₁, .ok a⟩ ∧ f a = ⟨ds₂, .ok b⟩ ∧ ds = ds₁ ++ ds₂ := by
  obtain ⟨xs, o⟩ := x
  cases o with
  | error e => simp [bind, andThen]
  | ok a =>
    show (⟨xs ++ (f a).documents, (f a).outcome⟩ : Emit β) = ⟨ds, .ok b⟩ ↔ _
    constructor
    · intro h
      obtain ⟨rfl, ho⟩ := Emit.mk.injEq .. ▸ h
      exact ⟨xs, a, (f a).documents, rfl, by rw [← ho], rfl⟩
    · intro h
      obtain ⟨ds₁, a', ds₂, hx, hf, rfl⟩ := h
      obtain ⟨rfl, ha⟩ := Emit.mk.injEq .. ▸ hx
      obtain rfl : a = a' := Except.ok.inj ha
      rw [hf]

theorem pure_eq_ok {a b : α} {ds : List Document} :
    (pure a : Emit α) = ⟨ds, .ok b⟩ ↔ ds = [] ∧ a = b := by
  show (⟨[], .ok a⟩ : Emit α) = _ ↔ _
  rw [Emit.mk.injEq, Except.ok.injEq, eq_comm (a := [])]

theorem ofOutcome_eq_ok {o : Outcome α} {a : α} {ds : List Document} :
    ofOutcome o = ⟨ds, .ok a⟩ ↔ ds = [] ∧ o = .ok a := by
  rw [ofOutcome, Emit.mk.injEq, eq_comm (a := [])]

theorem write_eq_ok {d : Document} {u : Unit} {ds : List Document} :
    write d = ⟨ds, .ok u⟩ ↔ ds = [d] := by
  rw [write, Emit.mk.injEq, eq_comm (a := [d]), and_iff_left rfl]

theorem writeAll_eq_ok {xs : List Document} {u : Unit} {ds : List Document} :
    writeAll xs = ⟨ds, .ok u⟩ ↔ ds = xs := by
  rw [writeAll, Emit.mk.injEq, eq_comm (a := xs), and_iff_left rfl]

end Emit

namespace Serialize

open Emit

theorem balances_eq_ok {c : BalanceDoc.Context} {changes : List EntryChange} {ds : List Document}
    {s : Stats} :
    balances c changes = ⟨ds, .ok s⟩ ↔
      ∃ docs, BalanceDoc.ofChanges c changes = .ok docs ∧ { balances := docs.length } = s ∧
        ds = docs.map .balance := by
  simp [balances, bind_eq_ok, ofOutcome_eq_ok, writeAll_eq_ok, pure_eq_ok]

theorem trades_eq_ok {doc : OperationDoc} {result : Option OperationResult} {ds : List Document}
    {s : Stats} :
    trades doc result = ⟨ds, .ok s⟩ ↔
      (result = none ∧ ds = [] ∧ {} = s) ∨
      ∃ r docs, result = some r ∧ TradeDoc.ofResult doc r = .ok docs ∧
        { trades := docs.length } = s ∧ ds = docs.map .trade := by
  cases result <;> simp [trades, bind_eq_ok, ofOutcome_eq_ok, writeAll_eq_ok, pure_eq_ok]

theorem signers_eq_ok {doc : OperationDoc} {ds : List Document} {s : Stats} :
    signers doc = ⟨ds, .ok s⟩ ↔
      ds = ((SignerDoc.ofOperation? doc).map Document.signer).toList ∧
        { signers := ds.length } = s := by
  unfold signers
  cases SignerDoc.ofOperation? doc with
  | none =>
    simp only [pure_eq_ok]
    constructor <;> (rintro ⟨rfl, rfl⟩; exact ⟨rfl, rfl⟩)
  | some d =>
    simp only [bind_eq_ok, write_eq_ok, pure_eq_ok]
    constructor
    · intro h
      obtain ⟨_, _, _, rfl, ⟨rfl, rfl⟩, rfl⟩ := h
      exact ⟨rfl, rfl⟩
    · intro h
      obtain ⟨rfl, rfl⟩ := h
      exact ⟨_, (), _, rfl, ⟨rfl, rfl⟩, rfl⟩

/-! ## Parts of a transaction -/

/-- The fee balances of a transaction, where a fee charge of its index is known. -/
def feeBalances (ledger : LedgerRow) (fees : List FeeRow) (row : TransactionRow)
    (tx : TransactionDoc) : Emit Stats :=
  match feeOf fees row.index with
  | some fee => balances ⟨(Token.ofGroup .fee).merge tx.token, .fee, ledger.closeTime⟩ fee.changes
  | none => pure {}

/-- The balances an operation moved, where its changes are known. -/
def movedBalances (doc : OperationDoc) (changes : Option (List EntryChange)) : Emit Stats :=
  match changes with
  | some changes =>
    balances ⟨(Token.ofGroup .balance).merge doc.token, .operation, doc.closeTime⟩ changes
  | none => pure {}

/-- The result of the operation at a position that its documents are made from. -/
def resultAt (row : TransactionRow) (position : Nat) : Option OperationResult :=
  if row.isSuccess then row.result.operationResults[position]? else none

/-- What the operation at a position changed: nothing unless its transaction succeeded. -/
def effectsAt (row : TransactionRow) (position : Nat) (doc : OperationDoc) : Emit Stats :=
  if row.isSuccess then
    operationEffects doc row.changes.operations[position]? (resultAt row position)
  else pure {}

/-- What a transaction changed apart from its operations. -/
def effectsOf (ledger : LedgerRow) (fees : List FeeRow) (row : TransactionRow)
    (tx : TransactionDoc) : Emit Stats :=
  if row.isSuccess then transactionEffects ledger fees row tx else pure {}

section

variable {ledger : LedgerRow} {fees : List FeeRow} {row : TransactionRow} {tx : TransactionDoc}
  {doc : OperationDoc} {position : Nat} {changes : Option (List EntryChange)} {ds : List Document}
  {s : Stats}

theorem feeBalances_cases (h : feeBalances ledger fees row tx = ⟨ds, .ok s⟩) :
    (ds = [] ∧ s = {}) ∨ ∃ charged,
      balances ⟨(Token.ofGroup .fee).merge tx.token, .fee, ledger.closeTime⟩ charged =
        ⟨ds, .ok s⟩ := by
  unfold feeBalances at h
  split at h
  · exact .inr ⟨_, h⟩
  · obtain ⟨rfl, rfl⟩ := pure_eq_ok.mp h
    exact .inl ⟨rfl, rfl⟩

theorem movedBalances_cases (h : movedBalances doc changes = ⟨ds, .ok s⟩) :
    (ds = [] ∧ s = {}) ∨ ∃ moved,
      balances ⟨(Token.ofGroup .balance).merge doc.token, .operation, doc.closeTime⟩ moved =
        ⟨ds, .ok s⟩ := by
  unfold movedBalances at h
  split at h
  · exact .inr ⟨_, h⟩
  · obtain ⟨rfl, rfl⟩ := pure_eq_ok.mp h
    exact .inl ⟨rfl, rfl⟩

/-- A failed transaction has no effects. -/
theorem effectsOf_cases (h : effectsOf ledger fees row tx = ⟨ds, .ok s⟩) :
    (ds = [] ∧ s = {}) ∨ transactionEffects ledger fees row tx = ⟨ds, .ok s⟩ := by
  unfold effectsOf at h
  split at h
  · exact .inr h
  · obtain ⟨rfl, rfl⟩ := pure_eq_ok.mp h
    exact .inl ⟨rfl, rfl⟩

theorem effectsAt_cases (h : effectsAt row position doc = ⟨ds, .ok s⟩) :
    (ds = [] ∧ s = {}) ∨ operationEffects doc row.changes.operations[position]?
      (resultAt row position) = ⟨ds, .ok s⟩ := by
  unfold effectsAt at h
  split at h
  · exact .inr h
  · obtain ⟨rfl, rfl⟩ := pure_eq_ok.mp h
    exact .inl ⟨rfl, rfl⟩

end

theorem transactionEffects_eq (ledger : LedgerRow) (fees : List FeeRow) (row : TransactionRow)
    (tx : TransactionDoc) : transactionEffects ledger fees row tx = (do
      let fee ← feeBalances ledger fees row tx
      let events ← ofOutcome (OfferEvent.ofOperations
        ⟨(Token.ofGroup .offer).merge tx.token, tx.seq, ledger.closeTime⟩ row.changes.operations)
      writeAll (events.map .offer)
      pure (fee + { offerEvents := events.length })) := by
  unfold transactionEffects feeBalances
  cases feeOf fees row.index <;> rfl

theorem transactionEffects_eq_ok {ledger : LedgerRow} {fees : List FeeRow} {row : TransactionRow}
    {tx : TransactionDoc} {ds : List Document} {s : Stats} :
    transactionEffects ledger fees row tx = ⟨ds, .ok s⟩ ↔
      ∃ ds₁ fee events, feeBalances ledger fees row tx = ⟨ds₁, .ok fee⟩ ∧
        OfferEvent.ofOperations ⟨(Token.ofGroup .offer).merge tx.token, tx.seq, ledger.closeTime⟩
          row.changes.operations = .ok events ∧
        fee + { offerEvents := events.length } = s ∧ ds = ds₁ ++ events.map .offer := by
  rw [transactionEffects_eq]
  simp [bind_eq_ok, ofOutcome_eq_ok, writeAll_eq_ok, pure_eq_ok, and_assoc]

theorem operationEffects_eq (doc : OperationDoc) (changes : Option (List EntryChange))
    (result : Option OperationResult) : operationEffects doc changes result = (do
      let moved ← movedBalances doc changes
      let traded ← trades doc result
      let signed ← signers doc
      pure (moved + traded + signed)) := by
  unfold operationEffects movedBalances
  cases changes <;> rfl

theorem operationEffects_eq_ok {doc : OperationDoc} {changes : Option (List EntryChange)}
    {result : Option OperationResult} {ds : List Document} {s : Stats} :
    operationEffects doc changes result = ⟨ds, .ok s⟩ ↔
      ∃ ds₁ moved ds₂ traded ds₃ signed, movedBalances doc changes = ⟨ds₁, .ok moved⟩ ∧
        trades doc result = ⟨ds₂, .ok traded⟩ ∧ signers doc = ⟨ds₃, .ok signed⟩ ∧
        moved + traded + signed = s ∧ ds = ds₁ ++ (ds₂ ++ ds₃) := by
  rw [operationEffects_eq]
  simp only [bind_eq_ok, pure_eq_ok]
  constructor
  · intro h
    obtain ⟨ds₁, moved, _, h₁, ⟨ds₂, traded, _, h₂, ⟨ds₃, signed, _, h₃, ⟨rfl, hs⟩, rfl⟩, rfl⟩, rfl⟩ := h
    exact ⟨ds₁, moved, ds₂, traded, ds₃, signed, h₁, h₂, h₃, hs, by rw [List.append_nil]⟩
  · intro h
    obtain ⟨ds₁, moved, ds₂, traded, ds₃, signed, h₁, h₂, h₃, hs, rfl⟩ := h
    exact ⟨ds₁, moved, _, h₁, ⟨ds₂, traded, _, h₂, ⟨ds₃, signed, [], h₃, ⟨rfl, hs⟩,
      (List.append_nil _).symm⟩, rfl⟩, rfl⟩

theorem operationsFrom_cons (row : TransactionRow) (tx : TransactionDoc) (position : Nat)
    (op : Operation) (rest : List Operation) :
    operationsFrom row tx position (op :: rest) = (do
      let doc ← ofOutcome (OperationDoc.ofOperation tx op (resultAt row position) position)
      write (.operation doc)
      let effects ← effectsAt row position doc
      let more ← operationsFrom row tx (position + 1) rest
      pure ({ operations := 1 } + effects + more)) := by
  rw [operationsFrom]
  unfold effectsAt resultAt
  cases row.isSuccess <;> rfl

theorem operationsFrom_cons_eq_ok {row : TransactionRow} {tx : TransactionDoc} {position : Nat}
    {op : Operation} {rest : List Operation} {ds : List Document} {s : Stats} :
    operationsFrom row tx position (op :: rest) = ⟨ds, .ok s⟩ ↔
      ∃ doc ds₁ effects ds₂ more,
        OperationDoc.ofOperation tx op (resultAt row position) position = .ok doc ∧
        effectsAt row position doc = ⟨ds₁, .ok effects⟩ ∧
        operationsFrom row tx (position + 1) rest = ⟨ds₂, .ok more⟩ ∧
        { operations := 1 } + effects + more = s ∧ ds = .operation doc :: (ds₁ ++ ds₂) := by
  rw [operationsFrom_cons]
  simp only [bind_eq_ok, ofOutcome_eq_ok, write_eq_ok, pure_eq_ok]
  constructor
  · rintro ⟨_, doc, _, ⟨rfl, h⟩, ⟨_, _, _, rfl, ⟨ds₁, effects, _, h₁, ⟨ds₂, more, _, h₂, ⟨rfl, hs⟩,
      rfl⟩, rfl⟩, rfl⟩, rfl⟩
    exact ⟨doc, ds₁, effects, ds₂, more, h, h₁, h₂, hs, by simp⟩
  · intro h
    obtain ⟨doc, ds₁, effects, ds₂, more, h, h₁, h₂, hs, rfl⟩ := h
    exact ⟨[], doc, _, ⟨rfl, h⟩, ⟨_, (), _, rfl, ⟨ds₁, effects, _, h₁, ⟨ds₂, more, [], h₂, ⟨rfl, hs⟩,
      rfl⟩, rfl⟩, rfl⟩, by simp⟩

theorem transaction_eq (ledger : LedgerRow) (fees : List FeeRow) (position : Nat)
    (row : TransactionRow) : transaction ledger fees position row = (do
      let order ← ofOutcome (orderOfPosition "transaction_order" position)
      write (.transaction (.ofRow row order ledger.closeTime))
      let effects ← effectsOf ledger fees row (.ofRow row order ledger.closeTime)
      let operations ←
        operationsFrom row (.ofRow row order ledger.closeTime) 0 row.envelope.operations
      pure ({ transactions := 1 } + effects + operations)) := by
  unfold transaction effectsOf
  cases row.isSuccess <;> rfl

theorem transaction_eq_ok {ledger : LedgerRow} {fees : List FeeRow} {position : Nat}
    {row : TransactionRow} {ds : List Document} {s : Stats} :
    transaction ledger fees position row = ⟨ds, .ok s⟩ ↔
      ∃ order ds₁ effects ds₂ operations,
        orderOfPosition "transaction_order" position = .ok order ∧
        effectsOf ledger fees row (.ofRow row order ledger.closeTime) = ⟨ds₁, .ok effects⟩ ∧
        operationsFrom row (.ofRow row order ledger.closeTime) 0 row.envelope.operations =
          ⟨ds₂, .ok operations⟩ ∧
        { transactions := 1 } + effects + operations = s ∧
        ds = .transaction (.ofRow row order ledger.closeTime) :: (ds₁ ++ ds₂) := by
  rw [transaction_eq]
  simp only [bind_eq_ok, ofOutcome_eq_ok, write_eq_ok, pure_eq_ok]
  constructor
  · rintro ⟨_, order, _, ⟨rfl, h⟩, ⟨_, _, _, rfl, ⟨ds₁, effects, _, h₁, ⟨ds₂, operations, _, h₂,
      ⟨rfl, hs⟩, rfl⟩, rfl⟩, rfl⟩, rfl⟩
    exact ⟨order, ds₁, effects, ds₂, operations, h, h₁, h₂, hs, by simp⟩
  · intro h
    obtain ⟨order, ds₁, effects, ds₂, operations, h, h₁, h₂, hs, rfl⟩ := h
    exact ⟨[], order, _, ⟨rfl, h⟩, ⟨_, (), _, rfl, ⟨ds₁, effects, _, h₁, ⟨ds₂, operations, [], h₂,
      ⟨rfl, hs⟩, rfl⟩, rfl⟩, rfl⟩, by simp⟩

/-! ## Whole ledgers -/

theorem transactionsFrom_cons_eq_ok {ledger : LedgerRow} {fees : List FeeRow} {position : Nat}
    {row : TransactionRow} {rest : List TransactionRow} {ds : List Document} {s : Stats} :
    transactionsFrom ledger fees position (row :: rest) = ⟨ds, .ok s⟩ ↔
      ∃ ds₁ this ds₂ more, transaction ledger fees position row = ⟨ds₁, .ok this⟩ ∧
        transactionsFrom ledger fees (position + 1) rest = ⟨ds₂, .ok more⟩ ∧
        this + more = s ∧ ds = ds₁ ++ ds₂ := by
  rw [transactionsFrom]
  simp only [bind_eq_ok, pure_eq_ok]
  constructor
  · intro h
    obtain ⟨ds₁, this, _, h₁, ⟨ds₂, more, _, h₂, ⟨rfl, hs⟩, rfl⟩, rfl⟩ := h
    exact ⟨ds₁, this, ds₂, more, h₁, h₂, hs, by rw [List.append_nil]⟩
  · intro h
    obtain ⟨ds₁, this, ds₂, more, h₁, h₂, hs, rfl⟩ := h
    exact ⟨ds₁, this, _, h₁, ⟨ds₂, more, [], h₂, ⟨rfl, hs⟩, (List.append_nil _).symm⟩, rfl⟩

theorem ledger_eq_ok {row : LedgerRow} {txs : List TransactionRow} {fees : List FeeRow}
    {ds : List Document} {s : Stats} :
    ledger row txs fees = ⟨ds, .ok s⟩ ↔
      ∃ doc ds₁ rest, LedgerDoc.ofRows row txs = .ok doc ∧
        transactionsFrom row fees 0 txs = ⟨ds₁, .ok rest⟩ ∧
        { ledgers := 1 } + rest = s ∧ ds = .ledger doc :: ds₁ := by
  unfold ledger
  simp only [bind_eq_ok, ofOutcome_eq_ok, write_eq_ok, pure_eq_ok]
  constructor
  · intro h
    obtain ⟨_, doc, _, ⟨rfl, h⟩, ⟨_, _, _, rfl, ⟨ds₁, rest, _, h₁, ⟨rfl, hs⟩, rfl⟩, rfl⟩, rfl⟩ := h
    exact ⟨doc, ds₁, rest, h, h₁, hs, by simp⟩
  · intro h
    obtain ⟨doc, ds₁, rest, h, h₁, hs, rfl⟩ := h
    exact ⟨[], doc, _, ⟨rfl, h⟩, ⟨_, (), _, rfl, ⟨ds₁, rest, [], h₁, ⟨rfl, hs⟩, rfl⟩, rfl⟩, by simp⟩

end Serialize

namespace Serialized

/-- A ledger on its own: its documents where it has a place for all of them, else its sequence. -/
theorem ofLedger_eq_ok {row : LedgerRow} {txs : List TransactionRow} {fees : List FeeRow}
    {s : Serialized} :
    ofLedger row txs fees = .ok s ↔
      (∃ ds stats, Serialize.ledger row txs fees = ⟨ds, .ok stats⟩ ∧
        s = { documents := ds, stats }) ∨
      ∃ ds field value, Serialize.ledger row txs fees =
          ⟨ds, .error (.error (.orderingOverflow field value))⟩ ∧
        s = { unindexable := [row.seq] } := by
  unfold ofLedger
  obtain ⟨ds, o⟩ := Serialize.ledger row txs fees
  dsimp only
  split
  · next stats => simp [eq_comm (b := s)]
  · next field value => simp [eq_comm (b := s)]
  · next failure h =>
    simp only [reduceCtorEq, Emit.mk.injEq, false_and, and_false, exists_false, false_or,
      Except.error.injEq, false_iff]
    intro h
    obtain ⟨ds', field, value, ⟨-, hf⟩, -⟩ := h
    exact h field value hf

theorem ofLedgers_cons_eq_ok {rows : Rows} {row : LedgerRow} {rest : List LedgerRow}
    {s : Serialized} :
    ofLedgers rows (row :: rest) = (s, .ok ()) ↔
      ∃ first more, ofLedger row (rows.transactionsOf row.seq) (rows.feesOf row.seq) = .ok first ∧
        ofLedgers rows rest = (more, .ok ()) ∧ s = first ++ more := by
  simp only [← Rows.serialize_filing, Filing.serialize_cons_eq_ok, Rows.transactions_filing,
    Rows.fees_filing]

end Serialized

end LedgerSearch
