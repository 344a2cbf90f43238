import LedgerSearch.Bytes

/-
  Base32 over the letters and the digits 2 to 7, without padding: five bytes make eight symbols.
-/

namespace LedgerSearch.Text.Base32

/-- The letters, then the digits from two to seven. -/
def symbol (n : Nat) : Char :=
  if n < 26 then Char.ofNat (65 + n) else Char.ofNat (24 + n)

/-- The lowest `width` base-32 digits of `n`, most significant first. -/
def symbols : Nat → Nat → List Char
  | 0, _ => []
  | width + 1, n => symbols width (n / 32) ++ [symbol (n % 32)]

/-- Five bytes make eight symbols; the last group is cut where its bytes end. -/
def chars : Bytes → List Char
  | a :: b :: c :: d :: e :: rest => symbols 8 (bigEndianNat [a, b, c, d, e]) ++ chars rest
  | [] => []
  | short => symbols ((short.length * 8 + 4) / 5)
      (bigEndianNat short <<< ((5 - short.length * 8 % 5) % 5))

/-- The text of `bs`. -/
def encode (bs : Bytes) : String := String.ofList (chars bs)

end LedgerSearch.Text.Base32
