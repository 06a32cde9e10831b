import Receipt.Time.Calendar

/-!
# Moments

A moment is a date with a time of day to the microsecond and, if its zone is known, the offset of
that zone. `wall` counts microseconds on the moment's own clock and `utc?` moves it to offset zero,
which fails when that leaves the calendar.
-/
namespace Receipt.Time

/-- Microseconds of a second and of a day. -/
def second : Nat := 1000000
def dayLength : Nat := 86400 * second

structure Clock where
  hour : Nat
  minute : Nat
  second : Nat
  microsecond : Nat
  hour_lt : hour < 24
  minute_lt : minute < 60
  second_lt : second < 60
  microsecond_lt : microsecond < 1000000
  deriving DecidableEq, Repr

def Clock.make? (hour minute second microsecond : Nat) : Except RangeError Clock :=
  if h : hour < 24 then
    if m : minute < 60 then
      if s : second < 60 then
        if u : microsecond < 1000000 then .ok ⟨hour, minute, second, microsecond, h, m, s, u⟩
        else .error .second
      else .error .second
    else .error .minute
  else .error .hour

def Clock.count (c : Clock) : Nat :=
  ((c.hour * 60 + c.minute) * 60 + c.second) * 1000000 + c.microsecond

theorem Clock.count_lt (c : Clock) : c.count < dayLength := by
  have := c.hour_lt
  have := c.minute_lt
  have := c.second_lt
  have := c.microsecond_lt
  simp only [count, dayLength, Time.second]
  omega

/-- The time of day that many microseconds after midnight, days left out. -/
def Clock.ofCount (n : Nat) : Clock where
  hour := n / 3600000000 % 24
  minute := n / 60000000 % 60
  second := n / 1000000 % 60
  microsecond := n % 1000000
  hour_lt := Nat.mod_lt _ (by decide)
  minute_lt := Nat.mod_lt _ (by decide)
  second_lt := Nat.mod_lt _ (by decide)
  microsecond_lt := Nat.mod_lt _ (by decide)

theorem Clock.count_ofCount {n : Nat} (h : n < dayLength) : (ofCount n).count = n := by
  simp only [dayLength, Time.second] at h
  simp only [ofCount, count]
  omega

theorem Clock.ofCount_count (c : Clock) : ofCount c.count = c := by
  have := c.hour_lt
  have := c.minute_lt
  have := c.second_lt
  have := c.microsecond_lt
  cases c
  simp only [ofCount, count, Clock.mk.injEq]
  simp only at *
  omega

/-- The distance of a zone from UTC, in microseconds east; less than a day either way. -/
structure Offset where
  east : Int
  lower : -86400000000 < east
  upper : east < 86400000000
  deriving DecidableEq, Repr

def Offset.make? (east : Int) : Option Offset :=
  if h : -86400000000 < east ∧ east < 86400000000 then some ⟨east, h.1, h.2⟩ else none

def Offset.utc : Offset := ⟨0, by decide, by decide⟩

/-- A date and a time of day, with the offset of its zone if that is known. -/
structure Moment where
  date : Date
  clock : Clock
  offset : Option Offset
  deriving DecidableEq, Repr

namespace Moment

/-- Microseconds on the moment's own clock since the day before year 1. -/
def wall (m : Moment) : Int := (m.date.ordinal * dayLength + m.clock.count : Nat)

/-- The moment at a place on the clock, without a zone. -/
def ofWall? (n : Int) : Option Moment :=
  match Date.ofOrdinal? (n / dayLength) with
  | some date => some ⟨date, .ofCount (n % dayLength).toNat, none⟩
  | none => none

/-- The same instant at offset zero; a moment without offset is taken as it is. -/
def utc? (m : Moment) : Option Moment :=
  match m.offset with
  | none => some m
  | some offset => (ofWall? (m.wall - offset.east)).map fun u => { u with offset := some .utc }

/-- The number of the day 1970-01-01. -/
def epochDay : Nat := 719163

/-- Microseconds since the epoch, on the moment's own clock. -/
def sinceEpoch (m : Moment) : Int := m.wall - (epochDay * dayLength : Nat)

end Moment

/-- A date text that has been read: the clock's own date and time, and the zone's seconds east of
UTC, which may be a day or more. -/
structure Reading where
  date : Date
  clock : Clock
  offset : Option Int
  deriving Repr

/-- The time of day; microseconds only if there are any. -/
def Clock.text (c : Clock) : String :=
  padZeros 2 c.hour ++ ":" ++ padZeros 2 c.minute ++ ":" ++ padZeros 2 c.second
    ++ (if c.microsecond = 0 then "" else "." ++ padZeros 6 c.microsecond)

/-- Sign, hours and minutes; seconds and microseconds only if there are any. -/
def Offset.text (o : Offset) : String :=
  let c := Clock.ofCount o.east.natAbs
  (if o.east < 0 then "-" else "+") ++ padZeros 2 c.hour ++ ":" ++ padZeros 2 c.minute
    ++ (if c.second = 0 ∧ c.microsecond = 0 then "" else
      ":" ++ padZeros 2 c.second
        ++ (if c.microsecond = 0 then "" else "." ++ padZeros 6 c.microsecond))

def Moment.text (m : Moment) : String :=
  m.date.text ++ " " ++ m.clock.text ++ (m.offset.map Offset.text).getD ""

end Receipt.Time
