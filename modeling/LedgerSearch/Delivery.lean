import LedgerSearch.Program.Site

/-
  Bulk bodies delivered to the index. A request that fails in any way is sent again as a whole, after
  a wait that doubles from one retry to the next, until the retries are used up.
-/

namespace LedgerSearch

/-- Bodies of bulk requests, of which the empty one need not be sent. -/
class Sendable (Body : Type) where
  isEmpty : Body → Bool

instance : Sendable String := ⟨String.isEmpty⟩

instance {α : Type} : Sendable (List α) := ⟨List.isEmpty⟩

/-- The longest wait between two attempts, in milliseconds. -/
def maxDelay : Nat := 30000

/-- The longest time there is a number for, in milliseconds: its seconds fit 64 bits. -/
def longestTime : Nat := UInt64.size * 1000 - 1

/-- How often and after what wait a failed request is sent again. -/
structure Writer where
  retries : UInt32
  /-- The wait before the first retry, in milliseconds. -/
  backoff : Nat

/-- How the delivery of one body ended. -/
inductive Delivery where
  | written (attempts : Nat)
  /-- Every attempt failed, the last with this error. -/
  | exhausted (attempts : Nat) (last : Error)
deriving DecidableEq

/-- The index took the documents, if only on the last attempt. -/
def Delivery.isWritten : Delivery → Bool
  | .written _ => true
  | .exhausted _ _ => false

namespace Writer

/-- The retries that follow a first attempt; the attempts together fit 32 bits. -/
def furtherAttempts (w : Writer) : Nat := min w.retries.toNat (UInt32.size - 2)

/-- The factor of the wait before a retry, a bit shifted once for each retry before it. A bit that
    would leave the word makes way for the largest factor. -/
def factor (retry : Nat) : UInt32 :=
  if retry - 1 < 32 then 1 <<< UInt32.ofNat (retry - 1) else UInt32.ofNat (UInt32.size - 1)

/-- The wait before the retry of that number. A product beyond the longest time counts as that. -/
def delay (w : Writer) (retry : Nat) : Nat :=
  min (min (w.backoff * (factor retry).toNat) longestTime) maxDelay

/-- What a reply that does not take every document is reported as. -/
def rejection (r : Search.BulkReply) : Error :=
  .index (.bulkRejected r.failed r.items (r.firstError.getD "errors flag set"))

variable {Body : Type}

/-- One request: whether the index took every document. -/
def attempt (body : Body) : Program (Site Body) (Except Error Unit) := do
  Site.increment .bulkRequests 1
  let reply ← Site.tryIndex (.bulk body)
  pure <| match reply with
    | .ok r => if r.isSuccess then .ok () else .error (rejection r)
    | .error e => .error e

/-- Attempts after `sent` earlier ones, and so many more if they fail. -/
def attempts (w : Writer) (body : Body) (documents sent : Nat) :
    Nat → Program (Site Body) Delivery
  | 0 => do
    match ← attempt body with
    | .ok () =>
      Site.increment .documentsWritten documents
      pure (.written (sent + 1))
    | .error e =>
      Site.increment .bulkFailures 1
      pure (.exhausted (sent + 1) e)
  | left + 1 => do
    match ← attempt body with
    | .ok () =>
      Site.increment .documentsWritten documents
      pure (.written (sent + 1))
    | .error _ =>
      Site.increment .bulkRetries 1
      Site.wait (w.delay (sent + 1))
      attempts w body documents (sent + 1) left

/-- Delivers a body that holds `documents` documents. -/
def write [Sendable Body] (w : Writer) (body : Body) (documents : Nat) :
    Program (Site Body) Delivery :=
  if Sendable.isEmpty body then .done (.written 0)
  else w.attempts body documents 0 w.furtherAttempts

end Writer

end LedgerSearch
