import LedgerSearch.Number.Binary64

/-
  JSON values and their compact text. An object keeps the order of its fields; `sorted` puts the
  fields of every object in the order of their names, the last of two equal names remaining.
-/

namespace LedgerSearch

open Number

/-- A JSON number: whole, or with a fraction or exponent. -/
inductive Json.Number where
  | int (n : Int)
  | float (x : Binary64)
deriving DecidableEq

/-- A value; an object keeps its fields in the order they were written in. -/
inductive Json where
  | null
  | bool (b : Bool)
  | number (n : Json.Number)
  | string (s : String)
  | array (items : List Json)
  | object (fields : List (String × Json))

namespace Json

/-- A whole number of any size. -/
def int (n : Int) : Json := .number (.int n)
def nat (n : Nat) : Json := .int n
def uint32 (n : UInt32) : Json := .nat n.toNat
def uint64 (n : UInt64) : Json := .nat n.toNat
def int32 (n : Int32) : Json := .int n.toInt
def int64 (n : Int64) : Json := .int n.toInt

/-- A binary fraction, written so that it is read back as the same one. -/
def float (x : Binary64) : Json := .number (.float x)

/-- One digit of a hexadecimal number, letters in lower case. -/
def hexDigit (n : Nat) : Char :=
  if n < 10 then Char.ofNat (48 + n) else Char.ofNat (87 + n)

/-- A character of a string as it is written between the quotes. -/
def escaped (c : Char) : List Char :=
  if c = '"' then ['\\', '"']
  else if c = '\\' then ['\\', '\\']
  else if c.toNat < 32 then
    match c.toNat with
    | 8 => ['\\', 'b']
    | 9 => ['\\', 't']
    | 10 => ['\\', 'n']
    | 12 => ['\\', 'f']
    | 13 => ['\\', 'r']
    | n => ['\\', 'u', '0', '0', hexDigit (n / 16), hexDigit (n % 16)]
  else [c]

/-- A string between its quotes. -/
def stringChars (s : String) : List Char :=
  '"' :: (s.toList.flatMap escaped ++ ['"'])

/-- Numbers are written in decimal. -/
def Number.chars : Json.Number → List Char
  | .int n => (toString n).toList
  | .float x => x.text.toList

mutual

/-- The compact text of a value, as characters. -/
def chars : Json → List Char
  | .null => ['n', 'u', 'l', 'l']
  | .bool true => ['t', 'r', 'u', 'e']
  | .bool false => ['f', 'a', 'l', 's', 'e']
  | .number n => n.chars
  | .string s => stringChars s
  | .array items => '[' :: (itemsChars items ++ [']'])
  | .object fields => '\x7b' :: (fieldsChars fields ++ ['\x7d'])

/-- The items of an array with commas between them. -/
def itemsChars : List Json → List Char
  | [] => []
  | [j] => j.chars
  | j :: rest => j.chars ++ ',' :: itemsChars rest

/-- The fields of an object with commas between them. -/
def fieldsChars : List (String × Json) → List Char
  | [] => []
  | [(name, j)] => stringChars name ++ ':' :: j.chars
  | (name, j) :: rest => stringChars name ++ ':' :: (j.chars ++ ',' :: fieldsChars rest)

end

/-- The compact text of a value. -/
def text (j : Json) : String := String.ofList j.chars

/-- Puts a field at its place among fields sorted by name, over an equal name. -/
def insertField (name : String) (j : Json) : List (String × Json) → List (String × Json)
  | [] => [(name, j)]
  | (name', j') :: rest =>
    if name < name' then (name, j) :: (name', j') :: rest
    else if name = name' then (name, j) :: rest
    else (name', j') :: insertField name j rest

mutual

/-- The value with the fields of every object in the order of their names. -/
def sorted : Json → Json
  | .array items => .array (sortedItems items)
  | .object fields => .object (sortedFields [] fields)
  | j => j

/-- The objects inside each item are sorted too. -/
def sortedItems : List Json → List Json
  | [] => []
  | j :: rest => j.sorted :: sortedItems rest

/-- The fields go in one after another, each value sorted itself. -/
def sortedFields (done : List (String × Json)) : List (String × Json) → List (String × Json)
  | [] => done
  | (name, j) :: rest => sortedFields (insertField name j.sorted done) rest

end

/-- The field of that name, if the value is an object that has one. -/
def get? (j : Json) (name : String) : Option Json :=
  match j with
  | .object fields => fields.lookup name
  | _ => none

/-- The value at the end of a path of field names. -/
def at? (j : Json) : List String → Option Json
  | [] => some j
  | name :: path =>
    match j.get? name with
    | some j' => j'.at? path
    | none => none

/-- The items, if it is an array. -/
def asArray? : Json → Option (List Json)
  | .array items => some items
  | _ => none

/-- The fields, if it is an object. -/
def asObject? : Json → Option (List (String × Json))
  | .object fields => some fields
  | _ => none

/-- The string itself, if it is one. -/
def asString? : Json → Option String
  | .string s => some s
  | _ => none

/-- The truth value, if it is one. -/
def asBool? : Json → Option Bool
  | .bool b => some b
  | _ => none

/-- A whole number that is not negative; a number with a fraction mark is none. -/
def asNat? : Json → Option Nat
  | .number (.int (.ofNat n)) => some n
  | _ => none

/-- Any number. -/
def asFloat? : Json → Option Binary64
  | .number (.int n) => some (Binary64.ofInt n)
  | .number (.float x) => some x
  | _ => none

end Json

end LedgerSearch
