import LedgerSearch.Failure
import LedgerSearch.Json.Parser
import LedgerSearch.Settings.Value

/-
  Where a layer of settings puts its values: at the end of a path of fields and items, into what the
  layers below have there.
-/

namespace LedgerSearch.Settings

namespace Value

mutual

/-- Puts a value in the place of `old`: the fields of a table one by one, anything else whole. Names
    of fields are in lower case. -/
def overlay (old : Option Value) : Value → Value
  | .table [] => old.getD (.table [])
  | .table (f :: rest) => .table (overlayFields ((old.map fields).getD []) (f :: rest))
  | .absent => .absent
  | .bool b => .bool b
  | .int n => .int n
  | .real x => .real x
  | .text s => .text s
  | .list items => .list items

/-- The fields of the upper table, put one by one on those of the lower. -/
def overlayFields (old : List (String × Value)) : List (String × Value) → List (String × Value)
  | [] => old
  | (name, new) :: rest =>
    let key := lowered name
    overlayFields (putField key (overlay (old.lookup key) new) old) rest

end

end Value

/-- One step into a value. -/
inductive Step where
  | field (name : String)
  /-- An item of a list by its place, or by its distance from the end if that is negative. -/
  | item (place : Int)
deriving DecidableEq

/-- The way to a value: a name at each table, a number at each list. -/
abbrev Path := List Step

/-- The most items a list can have, of 96 bytes each. -/
def maxItems : Nat := (Int64.maxValue.toInt / 96).toNat

/-- The place of an item in a list of that length, which need not be in it. -/
def placeIn (length : Nat) (place : Int) : Outcome Nat := do
  let n ← if 0 ≤ place then .ok place.toNat else checkedSub length place.natAbs
  if n < maxItems then .ok n else .error (.overflow .capacity)

/-- The items with something at that place. -/
def extended (items : List Value) (n : Nat) : List Value :=
  items ++ List.replicate (n + 1 - items.length) .absent

/-- Puts a value at the end of a path. What is on the way becomes a table or a list as the path
    needs; a table is put over one that is there, but an item is replaced. -/
def putAt (new : Value) : Path → Value → Outcome Value
  | [], _ => .ok new
  | [.field name], old =>
    .ok (.table (Value.putField name (Value.overlay (old.fields.lookup name) new) old.fields))
  | .field name :: path, old => do
    let inner ← putAt new path ((old.fields.lookup name).getD .absent)
    .ok (.table (Value.putField name inner old.fields))
  | .item place :: path, old => do
    let n ← placeIn old.items.length place
    let items := extended old.items n
    let inner ← putAt new path ((items[n]?).getD .absent)
    .ok (.list (items.set n inner))

/-- The characters of names in a path. -/
def isNameChar (c : Char) : Bool :=
  c.isAlphanum || c == '_' || c == '-' || c == ' '

/-- A name at the front of a text. -/
def pathName? (cs : List Char) : Option (String × List Char) :=
  match cs.takeWhile isNameChar with
  | [] => none
  | name => some (String.ofList name, cs.dropWhile isNameChar)

/-- Spaces and tabs may stand around the parts of a path. -/
def skipPathBlanks (cs : List Char) : List Char := cs.dropWhile fun c => c == ' ' || c == '\t'

/-- The place of an item, which is a 64-bit number, and the bracket that closes it. -/
def place? (cs : List Char) : Option (Int × List Char) :=
  let cs := skipPathBlanks cs
  let negative := cs.head? = some '-'
  let cs := if negative then cs.drop 1 else cs
  let digits := cs.takeWhile Json.isDigit
  let n : Int := Text.Hex.number 10 digits
  let n := if negative then -n else n
  match skipPathBlanks (cs.dropWhile Json.isDigit) with
  | ']' :: rest =>
    if digits.isEmpty ∨ n < Int64.minValue.toInt ∨ Int64.maxValue.toInt < n then none
    else some (n, rest)
  | _ => none

/-- The steps after the first name of a path; `fuel` bounds their number. -/
def steps? : Nat → List Char → Option Path
  | _, [] => some []
  | 0, _ => none
  | fuel + 1, '.' :: rest => do
    let (name, rest) ← pathName? rest
    some (.field name :: (← steps? fuel rest))
  | fuel + 1, '[' :: rest => do
    let (n, rest) ← place? rest
    some (.item n :: (← steps? fuel rest))
  | _ + 1, _ => none

/-- The path that a text spells, with points before fields and items in brackets; another text is a
    name as it is. -/
def pathOf (text : String) : Path :=
  let path? : Option Path := do
    let (name, rest) ← pathName? text.toList
    some (.field name :: (← steps? rest.length rest))
  path?.getD [.field text]

end LedgerSearch.Settings
