/-
  The moment a ledger closed: whole seconds since 1970, up to the year 262142, and its text in
  the Gregorian calendar.
-/

namespace LedgerSearch

/-- The last second that has a calendar date. -/
def lastSecond : Nat := 8210266876799

/-- A moment, in seconds since the start of 1970, that still has a calendar date. -/
structure CloseTime where
  seconds : Nat
  seconds_le : seconds ≤ lastSecond
deriving DecidableEq

namespace CloseTime

/-- The moment so many seconds after the start of 1970, unless it is past the last one. -/
def ofSeconds? (n : UInt64) : Option CloseTime :=
  if h : n.toNat ≤ lastSecond then some ⟨n.toNat, h⟩ else none

/-- A calendar day, as year, month and day of the month. -/
structure Date where
  year : Nat
  month : Nat
  day : Nat

/-- The date `days` days after 1 January 1970. Years are counted from 1 March, so that a leap day is
    the last of its year, and in eras of 400 years, which all have the same length. -/
def date (days : Nat) : Date :=
  -- from 1 March of the year 0
  let z := days + 719468
  let era := z / 146097
  let doe := z % 146097
  let yoe := (doe - doe / 1460 + doe / 36524 - doe / 146096) / 365
  let doy := doe - (365 * yoe + yoe / 4 - yoe / 100)
  let mp := (5 * doy + 2) / 153
  let month := if mp < 10 then mp + 3 else mp - 9
  let year := yoe + era * 400 + (if month ≤ 2 then 1 else 0)
  ⟨year, month, doy - (153 * mp + 2) / 5 + 1⟩

/-- At least `width` decimal digits, zeros in front. -/
def padded (width n : Nat) : List Char :=
  let ds := Nat.toDigits 10 n
  List.replicate (width - ds.length) '0' ++ ds

/-- Date and time of day in UTC; a year of more than four digits has a sign. -/
def text (t : CloseTime) : String :=
  let d := date (t.seconds / 86400)
  let s := t.seconds % 86400
  let year := if d.year > 9999 then '+' :: Nat.toDigits 10 d.year else padded 4 d.year
  String.ofList (year ++ '-' :: padded 2 d.month ++ '-' :: padded 2 d.day ++
    'T' :: padded 2 (s / 3600) ++ ':' :: padded 2 (s / 60 % 60) ++ ':' :: padded 2 (s % 60) ++ ['Z'])

end CloseTime

end LedgerSearch
