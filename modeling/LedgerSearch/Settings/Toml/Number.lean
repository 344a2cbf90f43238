import LedgerSearch.Json.Parser
import LedgerSearch.Settings.Value

/-
  The numbers of a settings file.
-/

namespace LedgerSearch.Settings.Toml

open Number

/-- Digits of a base, where an underscore may stand between two of them. -/
def digits? (isDigit : Char → Bool) : List Char → Option (List Char)
  | [] => none
  | [c] => if isDigit c then some [c] else none
  | c :: '_' :: rest => if isDigit c then (digits? isDigit rest).map (c :: ·) else none
  | c :: rest => if isDigit c then (digits? isDigit rest).map (c :: ·) else none

def isBinary (c : Char) : Bool := c == '0' || c == '1'

def isOctal (c : Char) : Bool := '0' ≤ c && c ≤ '7'

/-- A whole number without a sign, in one of four bases. -/
def whole? : List Char → Option Nat
  | '0' :: 'x' :: ds => (digits? Text.Hex.isDigit ds).map (Text.Hex.number 16)
  | '0' :: 'o' :: ds => (digits? isOctal ds).map (Text.Hex.number 8)
  | '0' :: 'b' :: ds => (digits? isBinary ds).map (Text.Hex.number 2)
  | ds => do
    let ds ← digits? Json.isDigit ds
    if ds.length > 1 ∧ ds.head? = some '0' then none else some (Text.Hex.number 10 ds)

/-- `significand` · 10 ^ `power`, which may be too large for a number. -/
def realOf (negative : Bool) (significand : Nat) (power : Int) : Real :=
  if significand = 0 then .finite { Binary64.zero with negative }
  else
    let size : Int := (Nat.toDigits 10 significand).length + power
    if size < -400 then .finite { Binary64.zero with negative }
    else if 400 < size then .infinite negative
    else
      let (n, d) := Binary64.tens significand power
      let x := Binary64.ofRatio negative n d
      if x.overflows then .infinite negative else .finite x

/-- The exponent of ten after its mark. -/
def power? : List Char → Option Int
  | '+' :: ds => (digits? Json.isDigit ds).map fun ds => (Text.Hex.number 10 ds : Int)
  | '-' :: ds => (digits? Json.isDigit ds).map fun ds => -(Text.Hex.number 10 ds : Int)
  | ds => (digits? Json.isDigit ds).map fun ds => (Text.Hex.number 10 ds : Int)

/-- A number with a fraction or an exponent, without a sign. One above all numbers is refused; one
    below them counts as minus infinity. -/
def fractional? (negative : Bool) (cs : List Char) : Option Real := do
  let isMark (c : Char) : Bool := c == 'e' || c == 'E'
  let mantissa := cs.takeWhile (!isMark ·)
  let power ← match cs.dropWhile (!isMark ·) with
    | [] => some 0
    | _ :: rest => power? rest
  let front := mantissa.takeWhile (· != '.')
  let whole ← digits? Json.isDigit front
  -- no zeros in front
  if whole.length > 1 ∧ whole.head? = some '0' then none
  else
    let decimals ← match mantissa.dropWhile (· != '.') with
      | [] => some []
      | _ :: rest => digits? Json.isDigit rest
    let x := realOf negative (Text.Hex.number 10 (whole ++ decimals)) (power - decimals.length)
    if x = .infinite false then none else some x

/-- A number. Whole numbers fit 64 bits, and only decimal ones have a sign. -/
def number? (token : List Char) : Option Value :=
  let (sign, cs) : Option Bool × List Char := match token with
    | '+' :: rest => (some false, rest)
    | '-' :: rest => (some true, rest)
    | cs => (none, cs)
  let negative := sign.getD false
  if cs = ['i', 'n', 'f'] then some (.real (.infinite negative))
  else if cs = ['n', 'a', 'n'] then some (.real .nan)
  else
    let based : Bool := match cs with
      | '0' :: c :: _ => c == 'x' || c == 'o' || c == 'b'
      | _ => false
    if based ∧ sign.isSome then none
    else match whole? cs with
      | some n =>
        let m : Int := if negative then -(n : Int) else n
        if Int64.minValue.toInt ≤ m ∧ m ≤ Int64.maxValue.toInt then some (.int m) else none
      | none => if based then none else (fractional? negative cs).map .real

end LedgerSearch.Settings.Toml
