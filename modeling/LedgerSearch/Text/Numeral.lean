/-
  Decimal numerals of unsigned words: ASCII digits, one plus sign allowed in front.
-/

namespace LedgerSearch.Text.Numeral

/-- Why a text is no numeral of the word. -/
inductive Fault where
  | empty
  | badDigit
  | tooLarge
deriving DecidableEq

/-- The text of a fault. -/
def Fault.message : Fault → String
  | .empty => "cannot parse integer from empty string"
  | .badDigit => "invalid digit found in string"
  | .tooLarge => "number too large to fit in target type"

/-- The digits read one after the other; the first fault met is reported. -/
def digits (size n : Nat) : List Char → Except Fault Nat
  | [] => .ok n
  | c :: rest =>
    if '0' ≤ c ∧ c ≤ '9' then
      let m := n * 10 + (c.toNat - 48)
      if m < size then digits size m rest else .error .tooLarge
    else .error .badDigit

/-- The number a text spells, below `size`. -/
def parse (size : Nat) (text : String) : Except Fault Nat :=
  match text.toList with
  | [] => .error .empty
  | ['+'] => .error .badDigit
  | '+' :: rest => digits size 0 rest
  | cs => digits size 0 cs

end LedgerSearch.Text.Numeral
