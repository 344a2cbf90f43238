import LedgerSearch.Json.Basic
import LedgerSearch.Metrics

/-
  The pages of the metrics server: the counters, and whether the program is up.
-/

namespace LedgerSearch.Routes

/-- The two pages that are served. -/
inductive Page where
  | metrics
  | health
deriving DecidableEq

/-- The page of a path, what follows a question mark left out. -/
def page? (path : String) : Option Page :=
  match String.ofList (path.toList.takeWhile (· ≠ '?')) with
  | "/metrics" => some .metrics
  | "/health" => some .health
  | _ => none

/-- What a response carries: fields of an object, or lines of text. -/
inductive Content where
  | health (fields : List (String × Json))
  | lines (ls : List String)

/-- What a request for a page is answered with. -/
structure Response where
  status : Nat
  body : Content

/-- The fields of the health page, besides the time. -/
def healthFields : List (String × Json) :=
  [("status", .string "healthy"), ("service", .string "ledger-indexer")]

/-- Pages are read only; a request for the head of one gets no body. -/
def respond (m : Metrics) (method path : String) : Response :=
  match page? path with
  | none => ⟨404, .lines []⟩
  | some page =>
    if method = "GET" then
      match page with
      | .metrics => ⟨200, .lines m.lines⟩
      | .health => ⟨200, .health healthFields⟩
    else if method = "HEAD" then ⟨200, .lines []⟩
    else ⟨405, .lines []⟩

end LedgerSearch.Routes
