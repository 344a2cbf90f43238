import LedgerSearch.Number.Binary64
import LedgerSearch.Text.Numeral

/-
  Values of settings as they come from a file or the environment, and how they are read where a
  setting needs a number, a flag or a text.
-/

namespace LedgerSearch.Settings

open Number

/-- A number with a fraction mark or exponent, or beyond all numbers, or none. -/
inductive Real where
  | finite (x : Binary64)
  | infinite (negative : Bool)
  | nan
deriving DecidableEq

/-- A value as a file or the environment writes it, before it is known what is to be read. -/
inductive Value where
  | absent
  | bool (b : Bool)
  | int (n : Int)
  | real (x : Real)
  | text (s : String)
  | list (items : List Value)
  | table (fields : List (String × Value))

namespace Real

/-- The nearest whole number that is not negative, a half going away from zero, cut to 64 bits. -/
def rounded : Real → Nat
  | .finite x =>
    let (n, d) := x.ratio
    if x.negative then 0 else min ((2 * n + d) / (2 * d)) (UInt64.size - 1)
  | .infinite negative => if negative then 0 else UInt64.size - 1
  | .nan => 0

/-- Zero of either sign. -/
def isZero : Real → Bool
  | .finite x => x.mantissa = 0
  | _ => false

/-- A number where text is expected; a whole one is written without a fraction. -/
def text : Real → String
  | .finite x => x.wholeText
  | .infinite negative => if negative then "-inf" else "inf"
  | .nan => "NaN"

end Real

/-- A letter in lower case. Of the letters outside ASCII only the Kelvin sign has one of ASCII
    there; the others are left as they are, since no name of a setting has them. -/
def lowerChar (c : Char) : Char := if c = '\u212a' then 'k' else c.toLower

/-- Letters in lower case. -/
def lowered (s : String) : String := String.ofList (s.toList.map lowerChar)

namespace Value

/-- A number below `size`; words for a flag and numerals count as numbers too. -/
def asNat? (size : Nat) (v : Value) : Option Nat := do
  let n ← match v with
    | .int n => if n < 0 then none else some n.toNat
    | .bool b => some b.toNat
    | .real x => some x.rounded
    | .text s =>
      if ["true", "on", "yes"].contains (lowered s) then some 1
      else if ["false", "off", "no"].contains (lowered s) then some 0
      else (Text.Numeral.parse UInt64.size s).toOption
    | .absent | .list _ | .table _ => none
  if n < size then some n else none

/-- A flag; words and numbers count as flags too. -/
def asBool? : Value → Option Bool
  | .bool b => some b
  | .int n => some (n ≠ 0)
  | .real x => some (!x.isZero)
  | .text s =>
    if ["1", "true", "on", "yes"].contains (lowered s) then some true
    else if ["0", "false", "off", "no"].contains (lowered s) then some false
    else none
  | .absent | .list _ | .table _ => none

/-- A text; numbers and flags count as the texts they are written with. -/
def asText? : Value → Option String
  | .text s => some s
  | .bool b => some (if b then "true" else "false")
  | .int n => some (toString n)
  | .real x => some x.text
  | .absent | .list _ | .table _ => none

/-- A text that may be missing. -/
def asOptionalText? : Value → Option (Option String)
  | .absent => some none
  | v => v.asText?.map some

/-- The fields of a table; anything else has none. -/
def fields : Value → List (String × Value)
  | .table fields => fields
  | _ => []

/-- The items of a list; anything else has none. -/
def items : Value → List Value
  | .list items => items
  | _ => []

/-- Fields of which each name is there once, the last one given. -/
def putField (name : String) (v : Value) : List (String × Value) → List (String × Value)
  | [] => [(name, v)]
  | (name', v') :: rest =>
    if name' = name then (name, v) :: rest else (name', v') :: putField name v rest

end Value

end LedgerSearch.Settings
