import LedgerSearch.Failure

/-
  Programs that ask the world around them. A program is finished, has stopped, or asks something and
  goes on with the answer; what answers is no part of it.
-/

namespace LedgerSearch

/-- What can be asked, and what kind of answer each question has. -/
structure Interface where
  Request : Type
  Reply : Request → Type

/-- A computation that asks the world: it is done, it has failed, or it waits for a reply. -/
inductive Program (I : Interface) (α : Type) where
  | done (a : α)
  | stop (f : Failure)
  | ask (r : I.Request) (next : I.Reply r → Program I α)

namespace Program

variable {I J : Interface} {α β σ : Type}

/-- The first program, and on its result the second. -/
def andThen : Program I α → (α → Program I β) → Program I β
  | .done a, f => f a
  | .stop e, _ => .stop e
  | .ask r next, f => .ask r fun reply => (next reply).andThen f

instance : Monad (Program I) where
  pure := done
  bind := andThen

/-- The answer to one request. -/
def request (r : I.Request) : Program I (I.Reply r) := .ask r .done

/-- A computation that asks nothing. -/
def ofOutcome : Outcome α → Program I α
  | .ok a => .done a
  | .error f => .stop f

/-- The same of a result whose only failures are errors. -/
def ofResult : Except Error α → Program I α
  | .ok a => .done a
  | .error e => .stop (.error e)

/-- The same program where its requests are some of those that can be asked. -/
def lift (into : I.Request → J.Request) (reply : ∀ r, J.Reply (into r) → I.Reply r) :
    Program I α → Program J α
  | .done a => .done a
  | .stop f => .stop f
  | .ask r next => .ask (into r) fun a => (next (reply r a)).lift into reply

/-- What answers requests, from a state that each answer may change. -/
abbrev Handler (I : Interface) (σ : Type) := (r : I.Request) → σ → I.Reply r × σ

/-- The result of a program and the state it leaves. -/
def run (h : Handler I σ) : Program I α → σ → Outcome α × σ
  | .done a, s => (.ok a, s)
  | .stop f, s => (.error f, s)
  | .ask r next, s =>
    let (reply, s) := h r s
    (next reply).run h s

end Program

end LedgerSearch
