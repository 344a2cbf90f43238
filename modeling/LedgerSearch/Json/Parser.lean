import LedgerSearch.Json.Basic
import LedgerSearch.Text.Hex

/-
  JSON text read. A number without fraction and exponent that fits 64 bits is whole. Any other is
  made of the digits that fit 64 bits, scaled once by a power of ten.
-/

namespace LedgerSearch.Json

open LedgerSearch.Number

/-- The four characters that may stand between tokens. -/
def isSpace (c : Char) : Bool := c == ' ' || c == '\n' || c == '\t' || c == '\r'

def skipSpace (cs : List Char) : List Char := cs.dropWhile isSpace

/-- A piece of a string: a character, or a 16-bit unit given by its number. -/
inductive Piece where
  | char (c : Char)
  | unit (n : Nat)

/-- The pieces of a string up to its closing quote, and what follows it. -/
def pieces : List Char → Option (List Piece × List Char)
  | '"' :: rest => some ([], rest)
  | '\\' :: 'u' :: a :: b :: c :: d :: rest => do
    let ds := [a, b, c, d]
    if ds.all Text.Hex.isDigit then
      let (ps, rest) ← pieces rest
      some (.unit (Text.Hex.number 16 ds) :: ps, rest)
    else none
  | '\\' :: e :: rest => do
    let c ← match e with
      | '"' => some '"'
      | '\\' => some '\\'
      | '/' => some '/'
      | 'b' => some (Char.ofNat 8)
      | 'f' => some (Char.ofNat 12)
      | 'n' => some '\n'
      | 'r' => some '\r'
      | 't' => some '\t'
      | _ => none
    let (ps, rest) ← pieces rest
    some (.char c :: ps, rest)
  | c :: rest =>
    if c = '\\' ∨ c.toNat < 32 then none
    else do
      let (ps, rest) ← pieces rest
      some (.char c :: ps, rest)
  | [] => none

/-- The first half of a character written as two units of 16 bits. -/
def isHighUnit (n : Nat) : Bool := 0xD800 ≤ n && n ≤ 0xDBFF

/-- The second half of such a character. -/
def isLowUnit (n : Nat) : Bool := 0xDC00 ≤ n && n ≤ 0xDFFF

/-- The characters of the pieces; a high unit and the low unit after it make one. -/
def joined : List Piece → Option (List Char)
  | [] => some []
  | .char c :: ps => do some (c :: (← joined ps))
  | .unit n :: .unit m :: ps =>
    if isHighUnit n then
      if isLowUnit m then do
        some (Char.ofNat ((n - 0xD800) * 0x400 + (m - 0xDC00) + 0x10000) :: (← joined ps))
      else none
    else if isLowUnit n then none
    else do some (Char.ofNat n :: (← joined (.unit m :: ps)))
  | .unit n :: ps =>
    if isHighUnit n ∨ isLowUnit n then none
    else do some (Char.ofNat n :: (← joined ps))

/-- A string after its opening quote. -/
def stringBody (cs : List Char) : Option (String × List Char) := do
  let (ps, rest) ← pieces cs
  some (String.ofList (← joined ps), rest)

def isDigit (c : Char) : Bool := '0' ≤ c && c ≤ '9'

/-- Digits added to `n` as long as the result fits 64 bits: the result, how many were taken, and how
    many were left over. -/
def accumulate (n : Nat) : List Char → Nat × Nat × Nat
  | [] => (n, 0, 0)
  | c :: rest =>
    let m := n * 10 + (c.toNat - 48)
    if m < UInt64.size then
      let (r, taken, left) := accumulate m rest
      (r, taken + 1, left)
    else (n, 0, rest.length + 1)

/-- The number `significand` · 10 ^ `power`: the significand rounded, then scaled and rounded again,
    in steps of 10 ^ 308 when the power is lower than that. -/
def scaleTen (significand : Nat) (power : Int) : Option Binary64 :=
  let start := Binary64.ofNat significand
  let ten (k : Nat) : Binary64 := Binary64.ofNat (Binary64.tenTo k)
  if significand = 0 then some start
  else if 308 < power then none
  else if 0 ≤ power then
    let x := start.mul (ten power.toNat)
    if x.overflows then none else some x
  else
    -- the second step already leaves zero, so that four are enough
    let rec go : Nat → Binary64 → Nat → Binary64
      | 0, x, _ => x
      | steps + 1, x, k =>
        if k ≤ 308 then x.div (ten k)
        else if x.mantissa = 0 then x
        else go steps (x.div (ten 308)) (k - 308)
    some (go 4 start power.natAbs)

/-- The digits of a fraction, after the point: at least one. -/
def fraction? : List Char → Option (List Char × List Char)
  | '.' :: rest =>
    let ds := rest.takeWhile isDigit
    if ds.isEmpty then none else some (ds, rest.dropWhile isDigit)
  | cs => some ([], cs)

/-- An exponent, after its mark: at least one digit. -/
def exponent? : List Char → Option (Option Int × List Char)
  | c :: rest =>
    if c = 'e' ∨ c = 'E' then
      let (negative, rest) := match rest with
        | '-' :: r => (true, r)
        | '+' :: r => (false, r)
        | r => (false, r)
      let ds := rest.takeWhile isDigit
      if ds.isEmpty then none
      else
        -- beyond 32 bits an exponent makes no difference any more
        let n : Int := min (ds.foldl (fun n c => n * 10 + (c.toNat - 48)) 0) Int32.maxValue.toInt
        some (some (if negative then -n else n), rest.dropWhile isDigit)
    else some (none, c :: rest)
  | [] => some (none, [])

/-- A number after its sign. -/
def magnitude? (negative : Bool) (cs : List Char) : Option (Json.Number × List Char) := do
  let whole := cs.takeWhile isDigit
  let rest := cs.dropWhile isDigit
  match whole with
  | [] => none
  | '0' :: _ :: _ => none
  | _ =>
    let (n, _, left) := accumulate 0 whole
    let (decimals, rest') ← fraction? rest
    let (exponent, rest'') ← exponent? rest'
    -- a whole number too large for 64 bits goes on as one with a fraction does
    if decimals.isEmpty ∧ exponent.isNone ∧ left = 0 then
      if negative then
        -- minus zero is no whole number, nor is what lies below all of 64 bits
        if n = 0 ∨ 0x8000000000000000 < n then
          some (.float { Binary64.ofNat n with negative := true }, rest'')
        else some (.int (-(n : Int)), rest'')
      else some (.int n, rest'')
    else
      let (n, taken, _) := accumulate n decimals
      let power : Int := (left : Int) - taken + exponent.getD 0
      let x ← scaleTen n power
      some (.float { x with negative }, rest'')

/-- A minus sign stands before the digits, a plus sign does not. -/
def number? : List Char → Option (Json.Number × List Char)
  | '-' :: rest => magnitude? true rest
  | cs => magnitude? false cs

/-- How deep arrays and objects may nest. -/
def maxDepth : Nat := 127

mutual

/-- A value and what follows it; `fuel` bounds the steps, `depth` the nesting still allowed. -/
def value? : Nat → Nat → List Char → Option (Json × List Char)
  | 0, _, _ => none
  | fuel + 1, depth, cs =>
    match skipSpace cs with
    | 'n' :: 'u' :: 'l' :: 'l' :: rest => some (.null, rest)
    | 't' :: 'r' :: 'u' :: 'e' :: rest => some (.bool true, rest)
    | 'f' :: 'a' :: 'l' :: 's' :: 'e' :: rest => some (.bool false, rest)
    | '"' :: rest => do
      let (s, rest) ← stringBody rest
      some (.string s, rest)
    | '[' :: rest =>
      if depth = 0 then none
      else match skipSpace rest with
        | ']' :: rest => some (.array [], rest)
        | rest => do
          let (items, rest) ← items? fuel (depth - 1) rest
          some (.array items, rest)
    | '\x7b' :: rest =>
      if depth = 0 then none
      else match skipSpace rest with
        | '\x7d' :: rest => some (.object [], rest)
        | rest => do
          let (fields, rest) ← fields? fuel (depth - 1) rest
          some (.object fields, rest)
    | cs => do
      let (n, rest) ← number? cs
      some (.number n, rest)

/-- The items of an array, its opening bracket already read. -/
def items? : Nat → Nat → List Char → Option (List Json × List Char)
  | 0, _, _ => none
  | fuel + 1, depth, cs => do
    let (j, rest) ← value? fuel depth cs
    match skipSpace rest with
    | ',' :: rest => do
      let (js, rest) ← items? fuel depth rest
      some (j :: js, rest)
    | ']' :: rest => some ([j], rest)
    | _ => none

/-- The fields of an object, its opening brace already read. -/
def fields? : Nat → Nat → List Char → Option (List (String × Json) × List Char)
  | 0, _, _ => none
  | fuel + 1, depth, cs =>
    match skipSpace cs with
    | '"' :: rest => do
      let (name, rest) ← stringBody rest
      match skipSpace rest with
      | ':' :: rest => do
        let (j, rest) ← value? fuel depth rest
        match skipSpace rest with
        | ',' :: rest => do
          let (fs, rest) ← fields? fuel depth rest
          some ((name, j) :: fs, rest)
        | '\x7d' :: rest => some ([(name, j)], rest)
        | _ => none
      | _ => none
    | _ => none

end

/-- Reads a text that holds one value and white space around it. -/
def parse? (text : String) : Option Json := do
  let cs := text.toList
  -- no value takes more than two steps for each of its characters
  let (j, rest) ← value? (2 * cs.length + 2) maxDepth cs
  if (skipSpace rest).isEmpty then some j else none

end LedgerSearch.Json
