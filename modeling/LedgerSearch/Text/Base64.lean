import LedgerSearch.Bytes

/-
  Base64 over the standard alphabet with canonical padding, and what is wrong with a text that
  is none. A fault names the first offending byte and its offset.
-/

namespace LedgerSearch.Text.Base64

/-- The capital letters, the small ones, the digits and two signs. -/
def symbol (n : Nat) : Char :=
  if n < 26 then Char.ofNat (65 + n)
  else if n < 52 then Char.ofNat (71 + n)
  else if n < 62 then Char.ofNat (n - 4)
  else if n = 62 then '+'
  else '/'

/-- What a symbol stands for. -/
def value? (b : UInt8) : Option Nat :=
  let n := b.toNat
  if 65 ≤ n ∧ n ≤ 90 then some (n - 65)
  else if 97 ≤ n ∧ n ≤ 122 then some (n - 71)
  else if 48 ≤ n ∧ n ≤ 57 then some (n + 4)
  else if n = 43 then some 62
  else if n = 47 then some 63
  else none

/-- Three bytes make four symbols; a shorter last group is filled up with equals signs. -/
def chars : Bytes → List Char
  | [] => []
  | [a] =>
    let n := a.toNat * 16
    [symbol (n / 64), symbol (n % 64), '=', '=']
  | [a, b] =>
    let n := (a.toNat * 256 + b.toNat) * 4
    [symbol (n / 4096), symbol (n / 64 % 64), symbol (n % 64), '=']
  | a :: b :: c :: rest =>
    let n := (a.toNat * 256 + b.toNat) * 256 + c.toNat
    symbol (n / 262144) :: symbol (n / 4096 % 64) :: symbol (n / 64 % 64) :: symbol (n % 64) ::
      chars rest

/-- The padded text of `bs`. -/
def encode (bs : Bytes) : String := String.ofList (chars bs)

/-- Why a text is not canonical base64. -/
inductive Fault where
  | badSymbol (byte : UInt8) (offset : Nat)
  | badLength (length : Nat)
  | badPadding
  /-- The last symbol carries bits that no byte takes up. -/
  | badLastSymbol (byte : UInt8) (offset : Nat)
deriving DecidableEq

/-- The text of a fault, with where it is. -/
def Fault.message : Fault → String
  | .badSymbol byte offset => s!"Invalid symbol {byte.toNat}, offset {offset}."
  | .badLength length => s!"Invalid input length: {length}"
  | .badPadding => "Invalid padding"
  | .badLastSymbol byte offset => s!"Invalid last symbol {byte.toNat}, offset {offset}."

/-- The equals sign. -/
def pad : UInt8 := 61

/-- The full quads before the tail. -/
def quads (offset : Nat) : Bytes → Except Fault Bytes
  | a :: b :: c :: d :: rest =>
    match value? a, value? b, value? c, value? d with
    | none, _, _, _ => .error (.badSymbol a offset)
    | _, none, _, _ => .error (.badSymbol b (offset + 1))
    | _, _, none, _ => .error (.badSymbol c (offset + 2))
    | _, _, _, none => .error (.badSymbol d (offset + 3))
    | some w, some x, some y, some z => do
      let n := ((w * 64 + x) * 64 + y) * 64 + z
      let bs ← quads (offset + 4) rest
      pure (bigEndianBytes 3 n ++ bs)
  | _ => .ok []

/-- What the symbols of a tail were: their values, the last of them, and the padding after them. -/
structure Tail where
  values : List Nat
  last : UInt8
  padding : Nat

/-- Reads the tail from its `i`th byte on; padding may only close it, after two symbols. -/
def tail (offset : Nat) : Nat → Tail → Bytes → Except Fault Tail
  | _, t, [] => .ok t
  | i, t, b :: rest =>
    if b = pad then
      if i < 2 then .error (.badSymbol b (offset + i))
      else tail offset (i + 1) { t with padding := t.padding + 1 } rest
    else if t.padding > 0 then .error (.badSymbol pad (offset + t.values.length))
    else match value? b with
      | none => .error (.badSymbol b (offset + i))
      | some v => tail offset (i + 1) { t with values := t.values ++ [v], last := b } rest

/-- The bytes a tail stands for. -/
def tailBytes (offset : Nat) (t : Tail) : Except Fault Bytes :=
  let k := t.values.length
  if k < 2 then .error (.badLength (offset + k))
  else if (k + t.padding) % 4 ≠ 0 then .error .badPadding
  else
    let bits := k * 6 % 8
    let n := t.values.foldl (fun n v => n * 64 + v) 0
    if n % (1 <<< bits) ≠ 0 then .error (.badLastSymbol t.last (offset + k - 1))
    else .ok (bigEndianBytes (k * 6 / 8) (n >>> bits))

/-- Reads a text given as its bytes. -/
def decodeBytes (bs : Bytes) : Except Fault Bytes := do
  let n := bs.length
  match bs.getLast? with
  | none => pure []
  | some last =>
    if n % 4 = 1 ∧ last ≠ pad ∧ value? last = none then throw (.badSymbol last (n - 1))
    let start := (n - 1) / 4 * 4
    let front ← quads 0 (bs.take start)
    let t ← tail start 0 ⟨[], 0, 0⟩ (bs.drop start)
    let back ← tailBytes start t
    pure (front ++ back)

/-- The characters that count as white space around a text. -/
def isBlank (c : Char) : Bool :=
  let n := c.toNat
  (9 ≤ n && n ≤ 13) || n == 32 || n == 0x85 || n == 0xA0 || n == 0x1680 ||
    (0x2000 ≤ n && n ≤ 0x200A) || n == 0x2028 || n == 0x2029 || n == 0x202F || n == 0x205F ||
    n == 0x3000

/-- The text without the white space at its ends. -/
def trimmed (text : String) : String :=
  String.ofList (((text.toList.dropWhile isBlank).reverse.dropWhile isBlank).reverse)

/-- Reads a text, white space around it aside. -/
def decode (text : String) : Except Fault Bytes :=
  decodeBytes (trimmed text).toUTF8.toList

end LedgerSearch.Text.Base64
