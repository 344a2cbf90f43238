import LedgerSearch.Bytes

/-
  UTF-8 text from bytes that may not be UTF-8: each longest run that could begin a character and
  does not finish one becomes one U+FFFD.
-/

namespace LedgerSearch.Text.Utf8

/-- What a first byte asks for: how many bytes follow it, and the range of the next one. -/
structure Lead where
  following : Nat
  low : Nat
  high : Nat

/-- What may follow a first byte: how many bytes, and between which bounds the next one lies. -/
def lead? (b : UInt8) : Option Lead :=
  let n := b.toNat
  if 0xC2 ≤ n ∧ n ≤ 0xDF then some ⟨1, 0x80, 0xBF⟩
  else if n = 0xE0 then some ⟨2, 0xA0, 0xBF⟩
  else if n = 0xED then some ⟨2, 0x80, 0x9F⟩
  else if 0xE1 ≤ n ∧ n ≤ 0xEF then some ⟨2, 0x80, 0xBF⟩
  else if n = 0xF0 then some ⟨3, 0x90, 0xBF⟩
  else if 0xF1 ≤ n ∧ n ≤ 0xF3 then some ⟨3, 0x80, 0xBF⟩
  else if n = 0xF4 then some ⟨3, 0x80, 0x8F⟩
  else none

/-- The payload bits of a first byte that is followed by others. -/
def leadBits (b : UInt8) (following : Nat) : Nat := b.toNat % (1 <<< (6 - following))

/-- The character that stands for what cannot be read. -/
def replacement : Char := Char.ofNat 0xFFFD

/-- Where decoding stands: between characters, or inside one with its bits so far, how many bytes it
    still needs and the range of the next one. -/
inductive State where
  | between
  | inside (bits following low high : Nat)

/-- One byte at the start of a character. -/
def start (b : UInt8) : List Char × State :=
  if b.toNat < 0x80 then ([Char.ofNat b.toNat], .between)
  else match lead? b with
    | some l => ([], .inside (leadBits b l.following) l.following l.low l.high)
    | none => ([replacement], .between)

/-- One byte anywhere: the characters it finishes, and the state after it. -/
def step : State → UInt8 → List Char × State
  | .between, b => start b
  | .inside bits following low high, b =>
    if low ≤ b.toNat ∧ b.toNat ≤ high then
      let bits := bits * 64 + b.toNat % 64
      if following = 1 then ([Char.ofNat bits], .between)
      else ([], .inside bits (following - 1) 0x80 0xBF)
    else
      let (cs, s) := start b
      (replacement :: cs, s)

/-- A character that is cut off at the end is replaced too. -/
def decodeFrom : State → Bytes → List Char
  | .between, [] => []
  | .inside .., [] => [replacement]
  | s, b :: rest =>
    let (cs, s') := step s b
    cs ++ decodeFrom s' rest

/-- The text of `bs`, ill-formed runs replaced. -/
def decodeLossy (bs : Bytes) : String := String.ofList (decodeFrom .between bs)

end LedgerSearch.Text.Utf8
