import LedgerSearch.Document.Basic

/-
  Computations that write documents as they go: what was written before a failure stays written.
-/

namespace LedgerSearch

/-- Documents that were written, and how the writing ended. -/
structure Emit (α : Type) where
  documents : List Document
  outcome : Outcome α

namespace Emit

variable {α β : Type}

/-- Ends well without a document. -/
def done (a : α) : Emit α := ⟨[], .ok a⟩

/-- What was written before a failure stays written. -/
def andThen (x : Emit α) (f : α → Emit β) : Emit β :=
  match x.outcome with
  | .ok a =>
    let y := f a
    ⟨x.documents ++ y.documents, y.outcome⟩
  | .error e => ⟨x.documents, .error e⟩

instance : Monad Emit where
  pure := done
  bind := andThen

/-- Writes one document. -/
def write (d : Document) : Emit Unit := ⟨[d], .ok ()⟩

/-- Writes documents in order. -/
def writeAll (ds : List Document) : Emit Unit := ⟨ds, .ok ()⟩

/-- A computation that writes nothing. -/
def ofOutcome (o : Outcome α) : Emit α := ⟨[], o⟩

end Emit

end LedgerSearch
