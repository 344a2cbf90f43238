import LedgerSearch.Text.Hex

/-
  Hosts given by their number: four bytes with full stops between them, or eight groups of 16 bits
  with colons between them, where one run of zeros may be left out and the last two groups may be
  given as four bytes.
-/

namespace LedgerSearch.Host

open Text

def isOctalDigit (c : Char) : Bool := '0' ≤ c && c ≤ '7'

/-- A part of an address of four bytes: in hexadecimal after `0x`, in octal after `0`, else in
    decimal. Nothing after one of these marks is zero. -/
def part? : List Char → Option Nat
  | [] => none
  | '0' :: 'x' :: ds | '0' :: 'X' :: ds => whole? 16 Hex.isDigit ds
  | '0' :: ds => whole? 8 isOctalDigit ds
  | ds => whole? 10 Char.isDigit ds
where
  whole? (base : Nat) (isDigit : Char → Bool) (ds : List Char) : Option Nat :=
    if ds.all isDigit then some (Hex.number base ds) else none

/-- The parts between full stops; one full stop may end them. -/
def parts (cs : List Char) : List (List Char) :=
  let all := cs.splitOn '.'
  if all.getLast? = some [] then all.dropLast else all

/-- Whether a host is a number: then it is no name, whether or not the number is right. -/
def endsInNumber (cs : List Char) : Bool :=
  match (parts cs).getLast? with
  | some last => (!last.isEmpty && last.all Char.isDigit) || (part? last).isSome
  | none => false

/-- An address of four bytes, of which the last part may stand for several. -/
def isIpv4 (cs : List Char) : Bool :=
  match (parts cs).mapM part? with
  | some numbers =>
    match numbers.reverse with
    | last :: front =>
      front.length ≤ 3 && front.all (· < 256) && last < 1 <<< (8 * (4 - front.length))
    | [] => false
  | none => false

/-- A byte in decimal without a leading zero. -/
def isByte (cs : List Char) : Bool :=
  !cs.isEmpty && cs.all Char.isDigit && Hex.number 10 cs < 256 &&
    (cs.length = 1 || cs.head? != some '0')

/-- Four bytes with full stops between them. -/
def isDotted (cs : List Char) : Bool :=
  let bytes := cs.splitOn '.'
  bytes.length = 4 && bytes.all isByte

/-- The groups of an address from the start of one on. There is room for `left` more; `shortened`
    says that a run of zeros has been left out. -/
def isGroups : (fuel left : Nat) → (shortened : Bool) → List Char → Bool
  | 0, _, _, _ => false
  | _ + 1, left, shortened, [] => shortened || left = 0
  | _ + 1, 0, _, _ => false
  | fuel + 1, left + 1, shortened, ':' :: rest => !shortened && isGroups fuel left true rest
  | fuel + 1, left + 1, shortened, cs =>
    let digits := (cs.take 4).takeWhile Hex.isDigit
    match cs.drop digits.length with
    | [] => shortened || left = 0
    | '.' :: _ => !digits.isEmpty && 1 ≤ left && isDotted cs && (shortened || left = 1)
    | ':' :: rest => !digits.isEmpty && !rest.isEmpty && isGroups fuel left shortened rest
    | _ => false

/-- An address of eight groups. Zeros left out at its start have two colons before them. -/
def isIpv6 (cs : List Char) : Bool :=
  match cs with
  | ':' :: ':' :: rest => isGroups (rest.length + 1) 7 true rest
  | ':' :: _ => false
  | [_] | [] => false
  | _ => isGroups (cs.length + 1) 8 false cs

end LedgerSearch.Host
