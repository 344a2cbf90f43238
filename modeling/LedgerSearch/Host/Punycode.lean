/-
  Labels of any characters, read from how they are written in letters, digits and hyphens: first the
  characters of ASCII among them, then one number for each other character, smallest first, that
  says how far on from the last one it is, counting places and code points together.
-/

namespace LedgerSearch.Host.Punycode

/-- The value of a digit, of which there are 36. -/
def digit? (c : Char) : Option Nat :=
  if 'a' ≤ c ∧ c ≤ 'z' then some (c.toNat - 97)
  else if 'A' ≤ c ∧ c ≤ 'Z' then some (c.toNat - 65)
  else if '0' ≤ c ∧ c ≤ '9' then some (c.toNat - 22)
  else none

/-- A digit below this one ends its number; `place` counts 36 for each digit up to it. -/
def threshold (place bias : Nat) : Nat :=
  if place ≤ bias then 1 else if bias + 26 ≤ place then 26 else place - bias

/-- A step scaled down to what the thresholds tell apart, and 36 for each time. -/
def scaled (step places : Nat) : Nat × Nat :=
  if 455 < step then scaled (step / 35) (places + 36) else (step, places)
termination_by step
decreasing_by omega

/-- Where the thresholds lie after a step, in a label that has grown to `length`. -/
def bias (step length : Nat) (isFirst : Bool) : Nat :=
  let step := if isFirst then step / 700 else step / 2
  let (step, places) := scaled (step + step / length) 0
  places + 36 * step / (step + 38)

/-- A label read so far, and the number that is being read. -/
structure State where
  label : List Char
  codePoint : Nat
  /-- The place after the character that was put in last. -/
  position : Nat
  bias : Nat
  /-- The place so far, its next digit counted `weight` times. -/
  sum : Nat
  weight : Nat
  place : Nat

namespace State

/-- A label before its first number. -/
def start (label : List Char) : State := ⟨label, 128, 0, 72, 0, 1, 36⟩

/-- Puts in the character a whole number stands for, if there is such a character. -/
def insert? (s : State) (sum : Nat) : Option State :=
  -- the sum tells both how far the code point moves on and where the character goes
  let length := s.label.length + 1
  let codePoint := s.codePoint + sum / length
  let position := sum % length
  if codePoint.isValidChar then
    some {
      label := s.label.take position ++ Char.ofNat codePoint :: s.label.drop position
      codePoint := codePoint
      position := position + 1
      bias := Punycode.bias (sum - s.position) length (s.position == 0)
      sum := position + 1
      weight := 1
      place := 36 }
  else none

/-- One more digit. No number is above 32 bits. -/
def step? (s : State) (c : Char) : Option State := do
  let d ← digit? c
  let sum := s.sum + d * s.weight
  let t := threshold s.place s.bias
  if UInt32.size ≤ sum then none
  -- a digit below the threshold is the last of its number
  else if d < t then s.insert? sum
  else
    let weight := s.weight * (36 - t)
    if UInt32.size ≤ weight then none
    else some { s with sum := sum, weight := weight, place := s.place + 36 }

/-- The label, unless a number has not ended. -/
def finish? (s : State) : Option (List Char) := if s.place = 36 then some s.label else none

end State

/-- The label that is written so. The last hyphen ends its characters of ASCII. -/
def decode? (cs : List Char) : Option (List Char) := do
  let digits := (cs.reverse.takeWhile (· != '-')).reverse
  let ascii := cs.take (cs.length - digits.length)
  if ascii = ['-'] then none
  else
    let s ← digits.foldlM State.step? (.start ascii.dropLast)
    s.finish?

end LedgerSearch.Host.Punycode
