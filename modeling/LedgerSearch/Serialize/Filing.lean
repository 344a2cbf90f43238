import Mathlib.Logic.Function.Basic
import LedgerSearch.Serialize.Batch

/-
  Rows filed under the sequences of their ledgers. A run of ledgers is made into documents from what
  is filed under each of its sequences.
-/

namespace LedgerSearch

/-- Rows under their sequences: each is filed behind those that are there already. -/
def fileBy {Row : Type} (seq : Row → UInt32) (rows : List Row) : UInt32 → List Row :=
  rows.foldl (fun m row => Function.update m (seq row) (m (seq row) ++ [row])) fun _ => []

/-- Transactions and fee charges under sequences, which need not be their own. -/
structure Filing where
  transactions : UInt32 → List TransactionRow
  fees : UInt32 → List FeeRow

/-- The rows of a run, each filed under its own sequence. -/
def Rows.filing (rows : Rows) : Filing :=
  ⟨fileBy (·.seq) rows.transactions, fileBy (·.seq) rows.fees⟩

/-- The ledgers one after the other, each with what is filed under its sequence: what came of those
    before the first that fails, and whether one did. -/
def Filing.serialize (m : Filing) : List LedgerRow → Serialized × Outcome Unit
  | [] => ({}, .ok ())
  | row :: rest =>
    match Serialized.ofLedger row (m.transactions row.seq) (m.fees row.seq) with
    | .error failure => ({}, .error failure)
    | .ok first =>
      let (more, outcome) := m.serialize rest
      (first ++ more, outcome)

end LedgerSearch
