import LedgerSearch.Bytes

/-
  Hexadecimal text: two lowercase digits a byte when written, either case when read.
-/

namespace LedgerSearch.Text.Hex

/-- One digit, letters in lower case. -/
def digit (n : Nat) : Char :=
  if n < 10 then Char.ofNat (48 + n) else Char.ofNat (87 + n)

/-- Two digits for each byte, the high one first. -/
def chars : Bytes → List Char
  | [] => []
  | b :: rest => digit (b.toNat / 16) :: digit (b.toNat % 16) :: chars rest

/-- The lowercase text of `bs`. -/
def encode (bs : Bytes) : String := String.ofList (chars bs)

/-- What a digit stands for; letters of either case are read. -/
def value? (c : Char) : Option Nat :=
  if '0' ≤ c ∧ c ≤ '9' then some (c.toNat - 48)
  else if 'a' ≤ c ∧ c ≤ 'f' then some (c.toNat - 87)
  else if 'A' ≤ c ∧ c ≤ 'F' then some (c.toNat - 55)
  else none

/-- A digit of either case. -/
def isDigit (c : Char) : Bool := (value? c).isSome

/-- The number digits spell in a base up to 16; what is no digit counts as zero. -/
def number (base : Nat) (cs : List Char) : Nat :=
  cs.foldl (fun n c => n * base + (value? c).getD 0) 0

/-- Why a text is not hexadecimal. -/
inductive Fault where
  | oddLength
  /-- The byte at `position` is no digit. -/
  | badDigit (byte : Char) (position : Nat)
deriving DecidableEq

/-- How a character is spelled between single quotes. -/
def quoted (c : Char) : String :=
  if c = '\t' then "\\t" else if c = '\n' then "\\n" else if c = '\r' then "\\r"
  else if c.toNat = 0 then "\\0" else if c = '\\' then "\\\\" else if c.toNat = 39 then "\\'"
  else if c.toNat < 32 ∨ (127 ≤ c.toNat ∧ c.toNat < 160) ∨ c.toNat = 173 then
    "\\u\x7b" ++ String.ofList (Nat.toDigits 16 c.toNat) ++ "\x7d"
  else c.toString

/-- The text of a fault, with where it is. -/
def Fault.message : Fault → String
  | .oddLength => "Odd number of digits"
  | .badDigit byte position => s!"Invalid character '{quoted byte}' at position {position}"

/-- Digits taken in pairs; the first one that is no digit is reported. -/
def pairs (position : Nat) : List Char → Except Fault Bytes
  | [] => .ok []
  | [_] => .error .oddLength
  | hi :: lo :: rest =>
    match value? hi, value? lo with
    | none, _ => .error (.badDigit hi position)
    | _, none => .error (.badDigit lo (position + 1))
    | some h, some l => do
      let bs ← pairs (position + 2) rest
      pure (UInt8.ofNat (h * 16 + l) :: bs)

/-- Reads the bytes of a text, each taken as one character; the length is looked at first. -/
def decode (text : String) : Except Fault Bytes :=
  let cs := text.toUTF8.toList.map fun b => Char.ofNat b.toNat
  if cs.length % 2 = 1 then .error .oddLength else pairs 0 cs

end LedgerSearch.Text.Hex
