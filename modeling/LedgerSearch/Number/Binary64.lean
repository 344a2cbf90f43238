/-
  Binary floating-point numbers of 53 bits, as exact sign, mantissa and exponent: the nearest one
  to a ratio, and the fewest decimal digits that read back as the same number.
-/

namespace LedgerSearch.Number

/-- The number ± `mantissa` · 2 ^ `exponent`, with a mantissa below 2 ^ 53. -/
structure Binary64 where
  negative : Bool
  mantissa : Nat
  exponent : Int
deriving DecidableEq

namespace Binary64

/-- The least exponent. -/
def least : Int := -1074

/-- The least mantissa of 53 bits. -/
def leadingBit : Nat := 1 <<< 52

/-- Zero without a sign. -/
def zero : Binary64 := ⟨false, 0, least⟩

/-- `n` · 2 ^ `e` as a ratio of natural numbers. -/
def scaled (n : Nat) (e : Int) : Nat × Nat :=
  if 0 ≤ e then (n <<< e.toNat, 1) else (n, 1 <<< (-e).toNat)

/-- The exponent at which `num / den` has a 53-bit integer part, or the least one. -/
def exponentOf (num den : Nat) : Int :=
  let e : Int := (num.log2 : Int) - den.log2 - 52
  let (n, d) := scaled num (-e)
  let q := n / (d * den)
  max least (if q < leadingBit then e - 1 else e)

/-- The integer nearest to `num / den`, a half going to the even neighbour. -/
def roundHalfEven (num den : Nat) : Nat :=
  let q := num / den
  let r := num % den
  if 2 * r < den then q
  else if den < 2 * r then q + 1
  else if q % 2 = 0 then q else q + 1

/-- The nearest number to ± `num / den`, for a positive `den`. -/
def ofRatio (negative : Bool) (num den : Nat) : Binary64 :=
  if num = 0 then ⟨negative, 0, least⟩
  else
    let e := exponentOf num den
    let (n, d) := scaled num (-e)
    let m := roundHalfEven n (d * den)
    if m = 2 * leadingBit then ⟨negative, leadingBit, e + 1⟩ else ⟨negative, m, e⟩

/-- The number nearest to a natural number. -/
def ofNat (n : Nat) : Binary64 := ofRatio false n 1

/-- The number nearest to an integer. -/
def ofInt (n : Int) : Binary64 := ofRatio (decide (n < 0)) n.natAbs 1

/-- The number as a ratio, its sign left aside. -/
def ratio (x : Binary64) : Nat × Nat := scaled x.mantissa x.exponent

/-- Whether the number is too large for its 11-bit exponent. -/
def overflows (x : Binary64) : Bool := 971 < x.exponent

/-- The product of the magnitudes, rounded, under the sign of `x`. -/
def mul (x y : Binary64) : Binary64 :=
  let (a, b) := x.ratio
  let (c, d) := y.ratio
  ofRatio x.negative (a * c) (b * d)

/-- The quotient of the magnitudes, rounded, under the sign of `x`. -/
def div (x y : Binary64) : Binary64 :=
  let (a, b) := x.ratio
  let (c, d) := y.ratio
  ofRatio x.negative (a * d) (b * c)

/-- The integer part of the magnitude. -/
def truncated (x : Binary64) : Nat :=
  let (n, d) := x.ratio
  n / d

/-- The number cut to a 32-bit count: no fraction, nothing below zero or above the largest. -/
def toUInt32Saturating (x : Binary64) : UInt32 :=
  if x.negative then 0 else UInt32.ofNat (min x.truncated (UInt32.size - 1))

/-- Digits `digits` read as a whole number times 10 ^ `power`. -/
structure Decimal where
  digits : Nat
  power : Int
deriving DecidableEq

/-- Powers of ten. -/
def tenTo (k : Nat) : Nat := Nat.pow 10 k

/-- `n` · 10 ^ `p` as a ratio of natural numbers. -/
def tens (n : Nat) (p : Int) : Nat × Nat :=
  if 0 ≤ p then (n * tenTo p.toNat, 1) else (n, tenTo (-p).toNat)

/-- The ends of the interval of reals whose nearest number is `x`, over one denominator:
    `(low, high, den)`. -/
def interval (x : Binary64) : Nat × Nat × Nat :=
  let m := x.mantissa
  -- the numbers below a power of two lie twice as close as those above it
  let below := if m = leadingBit ∧ least < x.exponent then 4 * m - 1 else 4 * m - 2
  let (low, den) := scaled below (x.exponent - 2)
  let (high, _) := scaled (4 * m + 2) (x.exponent - 2)
  (low, high, den)

/-- Whether a decimal reads back as `x`; the ends count for an even mantissa. -/
def readsBack (x : Binary64) (t : Decimal) : Bool :=
  let (low, high, den) := x.interval
  let (n, d) := tens t.digits t.power
  if x.mantissa % 2 = 0 then low * d ≤ n * den && n * den ≤ high * d
  else low * d < n * den && n * den < high * d

/-- The decimal on the grid of step 10 ^ `power` that reads back as `x` and is nearest to it. -/
def onGrid? (x : Binary64) (power : Int) : Option Decimal :=
  let (n, d) := x.ratio
  let (n', d') := tens n (-power)
  let num := n'
  let den := d' * d
  let q := num / den
  let down : Decimal := ⟨q, power⟩
  let up : Decimal := ⟨q + 1, power⟩
  match x.readsBack down, x.readsBack up with
  | true, true =>
    -- both neighbours read back: the nearer one, and the even one at a tie
    let r := num % den
    if 2 * r < den then some down
    else if den < 2 * r then some up
    else if q % 2 = 0 then some down else some up
  | true, false => some down
  | false, true => some up
  | false, false => none

/-- Tries ever finer grids. -/
def firstGrid (x : Binary64) : Nat → Int → Decimal
  | 0, power => (x.onGrid? power).getD ⟨0, 0⟩
  | tries + 1, power =>
    match x.onGrid? power with
    | some t => t
    | none => firstGrid x tries (power - 1)

/-- How many decimal digits the integer part of `num / den` has, or minus the count of zeros that
    follow the point before the first digit. -/
def magnitude (num den : Nat) : Int :=
  if den ≤ num then ((Nat.toDigits 10 (num / den)).length : Int)
  else 1 - ((Nat.toDigits 10 (den / num)).length : Int)

/-- The fewest digits that read back as `x`, nearest to it among those. -/
def shortest (x : Binary64) : Decimal :=
  if x.mantissa = 0 then ⟨0, 0⟩
  else
    let (n, d) := x.ratio
    -- seventeen digits always read back
    firstGrid x 20 (magnitude n d)

/-- The decimal without the zeros at its end. -/
def Decimal.stripped : Nat → Decimal → Decimal
  | 0, t => t
  | steps + 1, t =>
    if t.digits ≠ 0 ∧ t.digits % 10 = 0 then Decimal.stripped steps ⟨t.digits / 10, t.power + 1⟩
    else t

/-- The shortest decimal as its digits and the power of ten of the first of them. -/
def scientific (x : Binary64) : List Char × Int :=
  let t := Decimal.stripped 400 x.shortest
  let cs := Nat.toDigits 10 t.digits
  (cs, t.power + cs.length - 1)

/-- The number without an exponent and without a fraction mark where there is no fraction. -/
def wholeText (x : Binary64) : String :=
  let (cs, e) := x.scientific
  let body :=
    if x.mantissa = 0 then ['0']
    else if e < 0 then '0' :: '.' :: (List.replicate ((-e).toNat - 1) '0' ++ cs)
    else
      let whole := e.toNat + 1
      let front := cs.take whole ++ List.replicate (whole - cs.length) '0'
      match cs.drop whole with
      | [] => front
      | fraction => front ++ '.' :: fraction
  String.ofList (if x.negative then '-' :: body else body)

/-- The number as documents carry it: positional with a fraction from 10 ^ -5 up to 10 ^ 16,
    otherwise with an exponent, which shows its sign either way. -/
def text (x : Binary64) : String :=
  let (cs, e) := x.scientific
  let body :=
    if x.mantissa = 0 then ['0', '.', '0']
    else if e < -5 ∨ 16 ≤ e then
      let mark := if e < 0 then ['e', '-'] else ['e', '+']
      let front := match cs with
        | [] => []
        | [c] => [c]
        | c :: rest => c :: '.' :: rest
      front ++ mark ++ Nat.toDigits 10 e.natAbs
    else if e < 0 then '0' :: '.' :: (List.replicate ((-e).toNat - 1) '0' ++ cs)
    else
      let whole := e.toNat + 1
      let front := cs.take whole ++ List.replicate (whole - cs.length) '0'
      match cs.drop whole with
      | [] => front ++ ['.', '0']
      | fraction => front ++ '.' :: fraction
  String.ofList (if x.negative then '-' :: body else body)

end Binary64

end LedgerSearch.Number
