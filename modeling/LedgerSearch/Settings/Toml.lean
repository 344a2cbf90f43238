import LedgerSearch.Settings.Moment
import LedgerSearch.Settings.Toml.Number
import LedgerSearch.Settings.Toml.Table
import LedgerSearch.Settings.Toml.Text

/-
  Settings files: tables of keys and values, one statement a line.
-/

namespace LedgerSearch.Settings.Toml

/-- The characters that a bare value is made of. -/
def isTokenChar (c : Char) : Bool := c.isAlphanum || c == '_' || c == '-' || c == '+' || c == '.'

/-- A flag, a point in time or a number. -/
def plain? (cs : List Char) : Option (Value × List Char) :=
  let token := cs.takeWhile isTokenChar
  let rest := cs.dropWhile isTokenChar
  if token = ['t', 'r', 'u', 'e'] then some (.bool true, rest)
  else if token = ['f', 'a', 'l', 's', 'e'] then some (.bool false, rest)
  else match Moment.parse? cs with
    | some (m, rest) => some (.text m.text, rest)
    | none => (number? token).map fun v => (v, rest)

mutual

/-- A value; `fuel` bounds the steps, and `depth` how many lists and tables may lie around another
    value in it. -/
def value? : Nat → Nat → List Char → Option (Value × List Char)
  | 0, _, _ => none
  | fuel + 1, depth, cs =>
    match cs, depth with
    | '"' :: _, _ | '\x27' :: _, _ =>
      (string? (cs.length + 1) cs).map fun (s, rest) => (.text s, rest)
    | '[' :: rest, depth + 1 => (items? fuel depth rest).map fun (vs, rest) => (.list vs, rest)
    | '\x7b' :: rest, depth + 1 => do
      let (fields, rest) ← (match skipBlanks rest with
        | '\x7d' :: rest => some ([], rest)
        | rest => inline? fuel depth [] rest)
      some (.table (Node.fieldValues fields), rest)
    | cs, _ => plain? cs

/-- The items of a list after its opening bracket. -/
def items? : Nat → Nat → List Char → Option (List Value × List Char)
  | 0, _, _ => none
  | fuel + 1, depth, cs => do
    match ← skipLines (cs.length + 1) cs with
    | ']' :: rest => some ([], rest)
    | cs => do
      let (v, rest) ← value? fuel depth cs
      match ← skipLines (rest.length + 1) rest with
      | ',' :: rest => do
        let (vs, rest) ← items? fuel depth rest
        some (v :: vs, rest)
      | ']' :: rest => some ([v], rest)
      | _ => none

/-- The keys of a table on one line, put to those before them. -/
def inline? : Nat → Nat → Fields → List Char → Option (Fields × List Char)
  | 0, _, _, _ => none
  | fuel + 1, depth, fields, cs => do
    let (key, rest) ← key? cs
    match rest with
    | '=' :: rest => do
      let (v, rest) ← value? fuel depth (skipBlanks rest)
      let fields ← Node.setKey v key fields
      match skipBlanks rest with
      | ',' :: rest => inline? fuel depth fields rest
      | '\x7d' :: rest => some (fields, rest)
      | _ => none
    | _ => none

end

/-- The document so far, and the table that keys go to. -/
structure State where
  root : Fields := []
  table : List String := []

/-- A header after its opening bracket. -/
def header? (s : State) (cs : List Char) : Option (State × List Char) := do
  let (isList, cs) := match cs with
    | '[' :: rest => (true, rest)
    | cs => (false, cs)
  let (key, rest) ← key? cs
  let rest ← match isList, rest with
    | true, ']' :: ']' :: rest => some rest
    | false, ']' :: rest => some rest
    | _, _ => none
  let name ← key.getLast?
  let change := if isList then Node.addTable name else Node.openTable name
  some (⟨← Node.inTable change key.dropLast s.root, key⟩, ← lineEnd? rest)

/-- A key with its value. -/
def assignment? (s : State) (cs : List Char) : Option (State × List Char) := do
  let (key, rest) ← key? cs
  match rest with
  | '=' :: rest => do
    let (v, rest) ← value? (rest.length + 1) maxDepth (skipBlanks rest)
    some ({ s with root := ← Node.inTable (Node.setKey v key) s.table s.root }, ← lineEnd? rest)
  | _ => none

/-- The statements of a text; `fuel` bounds their number. -/
def statements? : Nat → State → List Char → Option State
  | 0, _, _ => none
  | fuel + 1, s, cs => do
    match ← skipLines (cs.length + 1) cs with
    | [] => some s
    | '[' :: rest => do
      let (s, rest) ← header? s rest
      statements? fuel s rest
    | cs => do
      let (s, rest) ← assignment? s cs
      statements? fuel s rest

/-- A text without the mark of its byte order at the front. -/
def dropMark : List Char → List Char
  | '\ufeff' :: rest => rest
  | cs => cs

/-- The table a file holds. The mark of the byte order may stand at its front, even twice. -/
def parse? (text : String) : Option (List (String × Value)) := do
  let cs := dropMark (dropMark text.toList)
  let s ← statements? (cs.length + 1) {} cs
  some (Node.fieldValues s.root)

end LedgerSearch.Settings.Toml
