import LedgerSearch.Settings.Value

/-
  The tables of a settings file while it is read, and what a header or a key may do to them.
-/

namespace LedgerSearch.Settings.Toml

/-- How a table came to be. -/
inductive Origin where
  /-- Named on the way to a table. -/
  | passed
  /-- Named on the way to a key. -/
  | dotted
  /-- Opened by a header. -/
  | opened
deriving DecidableEq

/-- A place of the document. -/
inductive Node where
  | value (v : Value)
  | table (origin : Origin) (fields : List (String × Node))
  | tables (items : List (List (String × Node)))

abbrev Fields := List (String × Node)

namespace Node

def put (name : String) (n : Node) : Fields → Fields
  | [] => [(name, n)]
  | (name', n') :: rest =>
    if name' = name then (name, n) :: rest else (name', n') :: put name n rest

/-- Changes the table at the end of a path of table names. -/
def inTable (change : Fields → Option Fields) : List String → Fields → Option Fields
  | [], fields => change fields
  | name :: path, fields => do
    let node ← match fields.lookup name with
      | none => some (.table .passed (← inTable change path []))
      | some (.table origin inner) => some (.table origin (← inTable change path inner))
      | some (.tables items) => do
        let last ← items.getLast?
        some (.tables (items.dropLast ++ [← inTable change path last]))
      | some (.value _) => none
    some (put name node fields)

/-- Sets a key, which is new. Its path leads through tables that no header has opened, and the last
    of them is one that keys have made; `isOpen` tells whether this table is such a one. -/
def setIn (v : Value) (isOpen : Bool) : List String → Fields → Option Fields
  | [], _ => none
  | [name], fields =>
    if isOpen && (fields.lookup name).isNone then some (put name (.value v) fields) else none
  | name :: path, fields => do
    let node ← match fields.lookup name with
      | none => some (.table .dotted (← setIn v true path []))
      | some (.table .dotted inner) => some (.table .dotted (← setIn v true path inner))
      | some (.table .passed inner) => some (.table .passed (← setIn v false path inner))
      | some (.tables items) => do
        let last ← items.getLast?
        some (.tables (items.dropLast ++ [← setIn v false path last]))
      | some (.table .opened _) | some (.value _) => none
    some (put name node fields)

/-- Sets a key of the table that is being filled. -/
def setKey (v : Value) (path : List String) (fields : Fields) : Option Fields :=
  setIn v true path fields

/-- Opens the table of that name by a header. -/
def openTable (name : String) (fields : Fields) : Option Fields :=
  match fields.lookup name with
  | none => some (put name (.table .opened []) fields)
  | some (.table .passed inner) => some (put name (.table .opened inner) fields)
  | some _ => none

/-- Adds a table to the list of that name. -/
def addTable (name : String) (fields : Fields) : Option Fields :=
  match fields.lookup name with
  | none => some (put name (.tables [[]]) fields)
  | some (.tables items) => some (put name (.tables (items ++ [[]])) fields)
  | some _ => none

mutual

def toValue : Node → Value
  | .value v => v
  | .table _ fields => .table (fieldValues fields)
  | .tables items => .list (tableValues items)

def fieldValues : Fields → List (String × Value)
  | [] => []
  | (name, n) :: rest => (name, n.toValue) :: fieldValues rest

def tableValues : List Fields → List Value
  | [] => []
  | fields :: rest => .table (fieldValues fields) :: tableValues rest

end

end Node

end LedgerSearch.Settings.Toml
