/-!
# The civil calendar of the years 1 to 9999

A date is a valid day of the Gregorian calendar, extended to all its years. `ordinal` counts days
from the first day of year 1, which has number one; `ofOrdinal?` finds the day of a number.
-/
namespace Receipt.Time

def isLeap (year : Nat) : Bool := year % 4 = 0 && (year % 100 ≠ 0 || year % 400 = 0)

def monthLengths (leap : Bool) : List Nat :=
  [31, if leap then 29 else 28, 31, 30, 31, 30, 31, 31, 30, 31, 30, 31]

/-- The length of a month; zero if there is no such month. -/
def monthLength (year month : Nat) : Nat :=
  if month = 0 then 0 else (monthLengths (isLeap year))[month - 1]?.getD 0

structure Date where
  year : Nat
  month : Nat
  day : Nat
  year_pos : 1 ≤ year
  year_le : year ≤ 9999
  day_pos : 1 ≤ day
  day_le : day ≤ monthLength year month
  deriving DecidableEq, Repr

/-- What is wrong with the numbers of a date or a time. -/
inductive RangeError where
  | year (shown : Nat)
  | month
  | day
  | hour
  | minute
  | second
  deriving DecidableEq, Repr

def RangeError.message : RangeError → String
  | .year shown => "year " ++ toString shown ++ " is out of range"
  | .month => "month must be in 1..12"
  | .day => "day is out of range for month"
  | .hour => "hour must be in 0..23"
  | .minute => "minute must be in 0..59"
  | .second => "second must be in 0..59"

/-- The day with these numbers; of several wrong ones the first is reported. -/
def Date.make? (year month day : Nat) : Except RangeError Date :=
  if hy : 1 ≤ year ∧ year ≤ 9999 then
    if month = 0 ∨ 12 < month then .error .month
    else if hd : 1 ≤ day ∧ day ≤ monthLength year month then
      .ok ⟨year, month, day, hy.1, hy.2, hd.1, hd.2⟩
    else .error .day
  else .error (.year year)

def daysBeforeYear (year : Nat) : Nat :=
  let y := year - 1
  365 * y + y / 4 - y / 100 + y / 400

def daysBeforeMonth (leap : Bool) (month : Nat) : Nat :=
  ((monthLengths leap).take (month - 1)).foldl (· + ·) 0

/-- The number of the day in its year, from one. -/
def Date.dayOfYear (d : Date) : Nat := daysBeforeMonth (isLeap d.year) d.month + d.day

/-- The number of the day, from one. -/
def Date.ordinal (d : Date) : Nat := daysBeforeYear d.year + d.dayOfYear

/-- Monday is zero. -/
def Date.weekday (d : Date) : Nat := (d.ordinal + 6) % 7

/-- The year that holds the day with `n` days before it, and the days of that year before it. A
cycle of 400 years has four centuries, a century 25 groups of four years; the last century and
the last year of a group are the ones that may be a day longer. -/
def yearAndDay (n : Nat) : Nat × Nat :=
  let cycle := n / 146097
  let inCycle := n % 146097
  let century := min 3 (inCycle / 36524)
  let inCentury := inCycle - 36524 * century
  let group := inCentury / 1461
  let inGroup := inCentury % 1461
  let single := min 3 (inGroup / 365)
  (400 * cycle + 100 * century + 4 * group + single + 1, inGroup - 365 * single)

/-- The month that holds the day with `n` days of the year before it, counted from `month`, and
the number of that day in it. -/
def monthAndDay (month : Nat) : List Nat → Nat → Nat × Nat
  | [], n => (month, n + 1)
  | length :: more, n =>
    if n < length then (month, n + 1) else monthAndDay (month + 1) more (n - length)

def Date.ofOrdinal? (n : Int) : Option Date :=
  if n < 1 then none
  else
    let (year, rest) := yearAndDay (n.toNat - 1)
    let (month, day) := monthAndDay 1 (monthLengths (isLeap year)) rest
    match Date.make? year month day with
    | .ok d => some d
    | .error _ => none

/-- Digits of a number, filled with zeros in front to a least length. -/
def padZeros (width n : Nat) : String :=
  let s := toString n
  String.ofList (List.replicate (width - s.length) '0') ++ s

def Date.text (d : Date) : String :=
  padZeros 4 d.year ++ "-" ++ padZeros 2 d.month ++ "-" ++ padZeros 2 d.day

end Receipt.Time
