import LedgerSearch.Wire.Reader

/-
  Codecs: how values of a type are read from and written to bytes. `Fits` holds of the values
  within the bounds of the format, those that writing is meant for. Codecs of records are made
  from those of their parts.
-/

namespace LedgerSearch.Wire

/-- A form of values in bytes; `Fits` says which values can be written in it. -/
structure Codec (α : Type) where
  read : Reader α
  write : α → Bytes
  Fits : α → Prop

namespace Codec

variable {α β : Type}

/-- Reads a value that takes up all of `bs`. -/
def decode (c : Codec α) (bs : Bytes) : Except DecodeError α := c.read.decode bs

/-- Four bytes, the high one first. -/
def uint32 : Codec UInt32 where
  read := Reader.uint32
  write n := bigEndianBytes 4 n.toNat
  Fits _ := True

/-- Four bytes in two's complement. -/
def int32 : Codec Int32 where
  read := Reader.int32
  write n := bigEndianBytes 4 n.toUInt32.toNat
  Fits _ := True

/-- Eight bytes, the high one first. -/
def uint64 : Codec UInt64 where
  read := Reader.uint64
  write n := bigEndianBytes 8 n.toNat
  Fits _ := True

/-- Eight bytes in two's complement. -/
def int64 : Codec Int64 where
  read := Reader.int64
  write n := bigEndianBytes 8 n.toUInt64.toNat
  Fits _ := True

/-- Zeros up to a multiple of four bytes. -/
def padded (bs : Bytes) : Bytes := bs ++ List.replicate (Reader.paddingLength bs.length) 0

/-- Bytes of a fixed number, without a length. -/
def block (n : Nat) : Codec (Block n) where
  read := Reader.block n
  write b := padded b.bytes
  Fits _ := True

/-- A block of 32 bytes. -/
def hash : Codec Hash := block 32

/-- A length, the bytes, then zeros up to a multiple of four. -/
def bytes (kind : String) (max : Nat) : Codec Bytes where
  read := Reader.bytes kind max
  write bs := bigEndianBytes 4 bs.length ++ padded bs
  Fits bs := bs.length ≤ max ∧ bs.length < UInt32.size

/-- A flag, then the value if there is one. -/
def option (c : Codec α) : Codec (Option α) where
  read := Reader.option c.read
  write
    | none => bigEndianBytes 4 0
    | some a => bigEndianBytes 4 1 ++ c.write a
  Fits o := ∀ a, o = some a → c.Fits a

/-- A count, then the items. -/
def array (kind : String) (max : Nat) (c : Codec α) : Codec (List α) where
  read := Reader.array kind max c.read
  write as := bigEndianBytes 4 as.length ++ as.flatMap c.write
  Fits as := as.length ≤ max ∧ as.length < UInt32.size ∧ ∀ a ∈ as, c.Fits a

/-- A place kept for extensions, none of which is known. -/
def emptyExt (kind : String) : Codec Unit where
  read := Reader.emptyExt kind
  write _ := bigEndianBytes 4 0
  Fits _ := True

/-- A value of `c`, then one of `d`. -/
def pair (c : Codec α) (d : Codec β) : Codec (α × β) where
  read := do
    let a ← c.read
    let b ← d.read
    pure (a, b)
  write p := c.write p.1 ++ d.write p.2
  Fits p := c.Fits p.1 ∧ d.Fits p.2

/-- A value of `c`, then something that carries no information. -/
def before (c : Codec α) (d : Codec Unit) : Codec α where
  read := do
    let a ← c.read
    d.read
    pure a
  write a := c.write a ++ d.write ()
  Fits a := c.Fits a

/-- The values of `c` under other names: `build` and `view` undo each other. -/
def imap (c : Codec α) (build : α → β) (view : β → α) : Codec β where
  read := do
    let a ← c.read
    pure (build a)
  write b := c.write (view b)
  Fits b := c.Fits (view b)

/-- The values of `c` as some of the values of a larger type. -/
def arm (c : Codec α) (build : α → β) (view : β → Option α) : Codec β where
  read := do
    let a ← c.read
    pure (build a)
  write b := match view b with
    | some a => c.write a
    | none => []
  Fits b := ∃ a, view b = some a ∧ c.Fits a

/-- One value, which takes no bytes. -/
def only (b : β) : Codec β where
  read := pure b
  write _ := []
  Fits b' := b' = b

/-- No value at all. -/
def refuse (e : DecodeError) : Codec β where
  read := throw e
  write _ := []
  Fits _ := False

/-- No value, because a union of this kind has no arm of that number. -/
def unknown (kind : String) (value : Int32) : Codec β :=
  refuse (.unknownDiscriminant kind value)

/-- The number of an arm, then a value of that arm. -/
def tagged (tag : β → Int32) (arms : Int32 → Codec β) : Codec β where
  read := do
    let t ← Reader.int32
    (arms t).read
  write b := int32.write (tag b) ++ (arms (tag b)).write b
  Fits b := (arms (tag b)).Fits b

end Codec

end LedgerSearch.Wire
