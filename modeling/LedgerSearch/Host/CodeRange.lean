import LedgerSearch.Text.Hex

/-
  Sets of characters as ranges of code points, and how the tables of this folder spell them: in
  hexadecimal, one code point, `first-last`, or `first-last/2` for every other one.
-/

namespace LedgerSearch.Host

/-- The code points from `first` to `last`, `step` apart. -/
structure CodeRange where
  first : Nat
  last : Nat
  step : Nat
deriving DecidableEq

/-- A number as the tables spell it. -/
def hexNat (text : String) : Nat := Text.Hex.number 16 text.toList

namespace CodeRange

/-- A character lies in a range if whole steps lead to it from the first. -/
def contains (r : CodeRange) (c : Char) : Bool :=
  r.first ≤ c.toNat && c.toNat ≤ r.last && (c.toNat - r.first) % r.step == 0

/-- A range as a table spells it. -/
def ofText (text : String) : CodeRange :=
  match text.splitOn "-" with
  | [first, last] =>
    match last.splitOn "/" with
    | [last, step] => ⟨hexNat first, hexNat last, hexNat step⟩
    | _ => ⟨hexNat first, hexNat last, 1⟩
  | _ => ⟨hexNat text, hexNat text, 1⟩

/-- The ranges of a table, which has spaces between them. -/
def all (lines : List String) : List CodeRange :=
  lines.flatMap fun line => (line.splitOn " ").map ofText

end CodeRange

/-- Membership in a table. -/
def inAny (ranges : List CodeRange) (c : Char) : Bool := ranges.any (·.contains c)

end LedgerSearch.Host
