import LedgerSearch.Json.Parser

/-
  The texts of a settings file: blanks and comments, quoted texts, and the names of keys.
-/

namespace LedgerSearch.Settings.Toml

def isBlank (c : Char) : Bool := c == ' ' || c == '\t'

def skipBlanks (cs : List Char) : List Char := cs.dropWhile isBlank

/-- The end of a line, or of the text. -/
def newline? : List Char → Option (List Char)
  | '\n' :: rest => some rest
  | '\r' :: '\n' :: rest => some rest
  | [] => some []
  | _ => none

def isControl (c : Char) : Bool := (c.toNat < 32 && c != '\t') || c.toNat == 127

/-- What follows a comment, if there is one. -/
def skipComment : List Char → Option (List Char)
  | '#' :: rest =>
    let line := rest.takeWhile (fun c => c != '\n' && c != '\r')
    if line.any isControl then none else some (rest.dropWhile (fun c => c != '\n' && c != '\r'))
  | cs => some cs

/-- Blanks, a comment and the end of the line. -/
def lineEnd? (cs : List Char) : Option (List Char) := do newline? (← skipComment (skipBlanks cs))

/-- Blanks, comments and ends of lines, as they may stand between the items of a list. -/
def skipLines : Nat → List Char → Option (List Char)
  | 0, _ => none
  | fuel + 1, cs => do
    let cs ← skipComment (skipBlanks cs)
    match cs with
    | '\n' :: rest => skipLines fuel rest
    | '\r' :: '\n' :: rest => skipLines fuel rest
    | cs => some cs

/-- The value of hexadecimal digits, as a character. -/
def charOfHex? (ds : List Char) : Option Char := do
  let n ← ds.foldlM (fun n c => do some (n * 16 + (← Text.Hex.value? c))) 0
  if n.isValidChar then some (Char.ofNat n) else none

/-- The character an escape stands for, after the backslash. -/
def escape? : List Char → Option (Char × List Char)
  | 'b' :: rest => some (Char.ofNat 8, rest)
  | 't' :: rest => some ('\t', rest)
  | 'n' :: rest => some ('\n', rest)
  | 'f' :: rest => some (Char.ofNat 12, rest)
  | 'r' :: rest => some ('\r', rest)
  | '"' :: rest => some ('"', rest)
  | '\\' :: rest => some ('\\', rest)
  | 'u' :: a :: b :: c :: d :: rest => do some (← charOfHex? [a, b, c, d], rest)
  | 'U' :: a :: b :: c :: d :: e :: f :: g :: h :: rest => do
    some (← charOfHex? [a, b, c, d, e, f, g, h], rest)
  | _ => none

/-- A text on one line after its opening quotation mark. -/
def basic? : Nat → List Char → Option (List Char × List Char)
  | 0, _ => none
  | _, [] => none
  | _, '"' :: rest => some ([], rest)
  | fuel + 1, '\\' :: rest => do
    let (c, rest) ← escape? rest
    let (cs, rest) ← basic? fuel rest
    some (c :: cs, rest)
  | fuel + 1, c :: rest =>
    if isControl c then none
    else do
      let (cs, rest) ← basic? fuel rest
      some (c :: cs, rest)

/-- A text on one line, as it stands, after its opening apostrophe. -/
def literal? : List Char → Option (List Char × List Char)
  | [] => none
  | '\x27' :: rest => some ([], rest)
  | c :: rest =>
    if isControl c then none
    else do
      let (cs, rest) ← literal? rest
      some (c :: cs, rest)

/-- Up to two of the quotation marks before the three that end a text belong to it. -/
def closing? (q : Char) (cs : List Char) : Option (List Char × List Char) :=
  let n := (cs.takeWhile (· == q)).length
  if n < 3 then none
  else
    let kept := min (n - 3) 2
    some (List.replicate kept q, cs.drop (kept + 3))

/-- Blanks and ends of lines. -/
def skipSpace : List Char → List Char
  | '\n' :: rest => skipSpace rest
  | '\r' :: '\n' :: rest => skipSpace rest
  | c :: rest => if isBlank c then skipSpace rest else c :: rest
  | [] => []

/-- A text on several lines; escapes count where the quotation mark is double. Whatever ends a line,
    the text has a line feed there. -/
def multiline? (q : Char) : Nat → List Char → Option (List Char × List Char)
  | 0, _ => none
  | _, [] => none
  | fuel + 1, '\r' :: '\n' :: rest => do
    let (cs, rest) ← multiline? q fuel rest
    some ('\n' :: cs, rest)
  | fuel + 1, c :: rest =>
    if c = q then
      match closing? q (c :: rest) with
      | some done => some done
      | none => do
        let (cs, rest) ← multiline? q fuel rest
        some (c :: cs, rest)
    else if c = '\\' ∧ q = '"' then
      -- at the end of a line the backslash leaves out the break and the space after it
      match newline? (skipBlanks rest) with
      | some _ =>
        multiline? q fuel (skipSpace rest)
      | none => do
        let (e, rest) ← escape? rest
        let (cs, rest) ← multiline? q fuel rest
        some (e :: cs, rest)
    else if isControl c ∧ c ≠ '\n' then none
    else do
      let (cs, rest) ← multiline? q fuel rest
      some (c :: cs, rest)

/-- The first line of a text on several lines is left out where it is empty. -/
def dropNewline : List Char → List Char
  | '\n' :: rest => rest
  | '\r' :: '\n' :: rest => rest
  | cs => cs

def string? (fuel : Nat) : List Char → Option (String × List Char)
  | '"' :: '"' :: '"' :: rest => do
    let (cs, rest) ← multiline? '"' fuel (dropNewline rest)
    some (String.ofList cs, rest)
  | '\x27' :: '\x27' :: '\x27' :: rest => do
    let (cs, rest) ← multiline? '\x27' fuel (dropNewline rest)
    some (String.ofList cs, rest)
  | '"' :: rest => do
    let (cs, rest) ← basic? fuel rest
    some (String.ofList cs, rest)
  | '\x27' :: rest => do
    let (cs, rest) ← literal? rest
    some (String.ofList cs, rest)
  | _ => none

def isBareChar (c : Char) : Bool := c.isAlphanum || c == '_' || c == '-'

/-- One name of a key. -/
def name? (cs : List Char) : Option (String × List Char) :=
  match cs with
  | '"' :: rest => do
    let (name, rest) ← basic? (rest.length + 1) rest
    some (String.ofList name, rest)
  | '\x27' :: rest => do
    let (name, rest) ← literal? rest
    some (String.ofList name, rest)
  | cs =>
    let name := cs.takeWhile isBareChar
    if name.isEmpty then none else some (String.ofList name, cs.dropWhile isBareChar)

/-- How deep tables and lists may lie in one another. -/
def maxDepth : Nat := 79

/-- At most `most` names with points between them. -/
def names? : Nat → List Char → Option (List String × List Char)
  | 0, _ => none
  | most + 1, cs => do
    let (name, rest) ← name? (skipBlanks cs)
    match skipBlanks rest with
    | '.' :: rest => do
      let (names, rest) ← names? most rest
      some (name :: names, rest)
    | rest => some ([name], rest)

/-- A key. -/
def key? (cs : List Char) : Option (List String × List Char) := names? maxDepth cs

end LedgerSearch.Settings.Toml
