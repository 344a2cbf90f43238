/-
  Days, times of day and points in time, as a settings file spells them and as they are written
  back: with a `T` between day and time, without zeros at the end of a second, and with the distance
  from universal time as hours and minutes.
-/

namespace LedgerSearch.Settings

/-- A day of the calendar. -/
structure Day where
  year : Nat
  month : Nat
  day : Nat
deriving DecidableEq

/-- A time of day, to the nanosecond. -/
structure TimeOfDay where
  hour : Nat
  minute : Nat
  second : Nat
  nanosecond : Nat
deriving DecidableEq

/-- Where local time stands to universal time. -/
inductive TimeOffset where
  | universal
  | behind (hours minutes : Nat)
  | ahead (hours minutes : Nat)
deriving DecidableEq

/-- A day, a time of day, or both with the offset of a zone. -/
inductive Moment where
  | day (d : Day)
  | time (t : TimeOfDay)
  | point (d : Day) (t : TimeOfDay) (offset : Option TimeOffset)
deriving DecidableEq

/-- A number with zeros in front, up to a width. -/
def padded (width n : Nat) : String :=
  let digits := Nat.toDigits 10 n
  String.ofList (List.replicate (width - digits.length) '0' ++ digits)

/-- Year, month and day with dashes between them. -/
def Day.text (d : Day) : String :=
  padded 4 d.year ++ "-" ++ padded 2 d.month ++ "-" ++ padded 2 d.day

namespace TimeOfDay

/-- The fraction of the second, if there is one. -/
def fraction (t : TimeOfDay) : String :=
  if t.nanosecond = 0 then ""
  else
    let digits := ((padded 9 t.nanosecond).toList.reverse.dropWhile (· == '0')).reverse
    "." ++ String.ofList digits

/-- Hour, minute and second, then as much of a fraction as there is. -/
def text (t : TimeOfDay) : String :=
  padded 2 t.hour ++ ":" ++ padded 2 t.minute ++ ":" ++ padded 2 t.second ++ t.fraction

end TimeOfDay

/-- No distance at all is written with a plus sign. -/
def TimeOffset.text : TimeOffset → String
  | .universal => "Z"
  | .ahead hours minutes => "+" ++ padded 2 hours ++ ":" ++ padded 2 minutes
  | .behind hours minutes =>
    (if hours = 0 ∧ minutes = 0 then "+" else "-") ++ padded 2 hours ++ ":" ++ padded 2 minutes

/-- Day and time with a `T` between them. -/
def Moment.text : Moment → String
  | .day d => d.text
  | .time t => t.text
  | .point d t offset => d.text ++ "T" ++ t.text ++ ((offset.map (·.text)).getD "")

/-- Exactly so many digits. -/
def fixedNumber? (count : Nat) (cs : List Char) : Option (Nat × List Char) :=
  let ds := cs.take count
  if ds.length = count ∧ ds.all Char.isDigit then
    some (ds.foldl (fun n c => n * 10 + (c.toNat - '0'.toNat)) 0, cs.drop count)
  else none

/-- Two digits of a number from `lo` to `hi`. -/
def twoDigits? (lo hi : Nat) (cs : List Char) : Option (Nat × List Char) := do
  let (n, rest) ← fixedNumber? 2 cs
  if lo ≤ n ∧ n ≤ hi then some (n, rest) else none

/-- What follows that character. -/
def after? (c : Char) : List Char → Option (List Char)
  | c' :: rest => if c' = c then some rest else none
  | [] => none

/-- The rule of the Gregorian calendar. -/
def isLeapYear (year : Nat) : Bool := year % 4 = 0 && (year % 100 ≠ 0 || year % 400 = 0)

/-- The length of a month. -/
def daysIn (year month : Nat) : Nat :=
  if month = 2 then if isLeapYear year then 29 else 28
  else if [4, 6, 9, 11].contains month then 30
  else 31

/-- A day that the calendar has. -/
def Day.parse? (cs : List Char) : Option (Day × List Char) := do
  let (year, cs) ← fixedNumber? 4 cs
  let (month, cs) ← twoDigits? 1 12 (← after? '-' cs)
  let (day, cs) ← twoDigits? 1 (daysIn year month) (← after? '-' cs)
  some (⟨year, month, day⟩, cs)

/-- The nanoseconds of the decimals of a second; those after the ninth are dropped. -/
def nanosecondsOf (decimals : List Char) : Nat :=
  let ds := decimals.take 9
  (ds ++ List.replicate (9 - ds.length) '0').foldl (fun n c => n * 10 + (c.toNat - '0'.toNat)) 0

/-- A time of day. A minute may have 61 seconds. -/
def TimeOfDay.parse? (cs : List Char) : Option (TimeOfDay × List Char) := do
  let (hour, cs) ← twoDigits? 0 23 cs
  let (minute, cs) ← twoDigits? 0 59 (← after? ':' cs)
  let (second, cs) ← twoDigits? 0 60 (← after? ':' cs)
  let decimals := ((after? '.' cs).getD []).takeWhile Char.isDigit
  if decimals.isEmpty then some (⟨hour, minute, second, 0⟩, cs)
  else some (⟨hour, minute, second, nanosecondsOf decimals⟩, cs.drop (1 + decimals.length))

/-- The distance from universal time, if one is given. -/
def TimeOffset.parse? (cs : List Char) : Option (Option TimeOffset × List Char) :=
  match cs with
  | 'Z' :: rest | 'z' :: rest => some (some .universal, rest)
  | sign :: rest =>
    if sign = '+' ∨ sign = '-' then do
      let (hours, rest) ← twoDigits? 0 23 rest
      let (minutes, rest) ← twoDigits? 0 59 (← after? ':' rest)
      some (some (if sign = '+' then .ahead hours minutes else .behind hours minutes), rest)
    else some (none, cs)
  | [] => some (none, [])

/-- A day, a time or both. A `T` or a blank stands between them. -/
def Moment.parse? (cs : List Char) : Option (Moment × List Char) :=
  match Day.parse? cs with
  | none => (TimeOfDay.parse? cs).map fun (t, rest) => (.time t, rest)
  | some (d, rest) =>
    let time := match rest with
      | mark :: rest => if "Tt ".toList.contains mark then TimeOfDay.parse? rest else none
      | [] => none
    match time with
    | none => some (.day d, rest)
    | some (t, rest) => (TimeOffset.parse? rest).map fun (offset, rest) => (.point d t offset, rest)

end LedgerSearch.Settings
