import LedgerSearch.Bytes
import LedgerSearch.Failure

/-
  Reading binary records: a reader takes bytes from the front of a cursor. A reading that fails
  leaves the cursor where it stopped. Everything is a multiple of four bytes long.
-/

namespace LedgerSearch.Wire

/-- The bytes still to be read, and how many came before them. -/
structure Cursor where
  rest : Bytes
  offset : Nat

/-- Bytes of which none has been read. -/
def Cursor.ofBytes (bs : Bytes) : Cursor := ⟨bs, 0⟩

/-- A reader of bytes moves a cursor or fails. -/
abbrev Reader := EStateM DecodeError Cursor

namespace Reader

/-- The next `n` bytes. -/
def take (n : Nat) : Reader Bytes := fun c =>
  let got := c.rest.take n
  if got.length < n then .error (.unexpectedEnd c.offset (n - got.length)) c
  else .ok got ⟨c.rest.drop n, c.offset + n⟩

/-- How many zero bytes follow `n` bytes of data. -/
def paddingLength (n : Nat) : Nat := (4 - n % 4) % 4

/-- The zero bytes after `n` bytes of data. -/
def padding (n : Nat) : Reader Unit := do
  let offset := (← get).offset
  let bs ← take (paddingLength n)
  if bs.all (· = 0) then pure () else throw (.nonZeroPadding offset)

/-- Four bytes, the high one first. -/
def uint32 : Reader UInt32 := do
  let bs ← take 4
  pure (UInt32.ofNat (bigEndianNat bs))

/-- Four bytes in two's complement. -/
def int32 : Reader Int32 := do
  let n ← uint32
  pure n.toInt32

/-- The high word, then the low one. -/
def uint64 : Reader UInt64 := do
  let hi ← uint32
  let lo ← uint32
  pure (UInt64.ofNat (hi.toNat * UInt32.size + lo.toNat))

/-- Eight bytes in two's complement. -/
def int64 : Reader Int64 := do
  let n ← uint64
  pure n.toInt64

/-- Only zero and one are truth values. -/
def bool : Reader Bool := do
  let n ← int32
  if n = 0 then pure false
  else if n = 1 then pure true
  else throw (.unknownDiscriminant "bool" n)

/-- `n` bytes and their padding. -/
def fixed (n : Nat) : Reader Bytes := do
  let bs ← take n
  padding n
  pure bs

/-- A block of `n` bytes and its padding. -/
def block (n : Nat) : Reader (Block n) := do
  let bs ← fixed n
  pure (Block.ofBytes n bs)

/-- A length, that many bytes, and their padding. -/
def bytes (kind : String) (max : Nat) : Reader Bytes := do
  let n ← uint32
  if max < n.toNat then throw (.lengthExceeded kind n.toNat max)
  fixed n.toNat

/-- A flag, and a value if it is set. -/
def option {α : Type} (r : Reader α) : Reader (Option α) := do
  if (← bool) then
    let a ← r
    pure (some a)
  else pure none

/-- `n` values one after the other. -/
def times {α : Type} (r : Reader α) : Nat → Reader (List α)
  | 0 => pure []
  | n + 1 => do
    let a ← r
    let rest ← times r n
    pure (a :: rest)

/-- A length and that many values. -/
def array {α : Type} (kind : String) (max : Nat) (r : Reader α) : Reader (List α) := do
  let n ← uint32
  if max < n.toNat then throw (.lengthExceeded kind n.toNat max)
  times r n.toNat

/-- A place for extensions of which only the empty one is known. -/
def emptyExt (kind : String) : Reader Unit := do
  let n ← int32
  if n = 0 then pure () else throw (.unknownDiscriminant kind n)

/-- The number of bytes left. -/
def remaining : Reader Nat := do
  pure (← get).rest.length

/-- The end of the input. -/
def finish : Reader Unit := do
  let n ← remaining
  if n = 0 then pure () else throw (.trailingBytes n)

/-- A value together with the bytes it was read from. -/
def consumed {α : Type} (r : Reader α) : Reader (α × Bytes) := do
  let before ← get
  let a ← r
  let after ← get
  pure (a, before.rest.take (after.offset - before.offset))

/-- A value and nothing after it. -/
def whole {α : Type} (r : Reader α) : Reader α := do
  let a ← r
  finish
  pure a

/-- A record that takes up all of `bs`. -/
def decode {α : Type} (r : Reader α) (bs : Bytes) : Except DecodeError α :=
  match r.whole (Cursor.ofBytes bs) with
  | .ok a _ => .ok a
  | .error e _ => .error e

end Reader

/-- The largest length of an array that has no maximum of its own. -/
def unbounded : Nat := UInt32.size - 1

end LedgerSearch.Wire
