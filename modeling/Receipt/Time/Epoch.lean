import Receipt.Number.Double
import Receipt.Time.Zone

/-!
# Seconds since the epoch

A number of seconds since 1970-01-01 names a moment on the clocks of a zone, without its offset: the
whole part counts seconds, and what is behind the point is rounded to microseconds, a tie to the even
one.
-/
namespace Receipt.Time.Moment

/-- Microseconds since the epoch. -/
def microseconds? (seconds : Double) : Option Int :=
  match seconds.truncate?, (seconds.fraction.mulNat 1000000).nearest? with
  | some whole, some rest => some (whole * 1000000 + rest)
  | _, _ => none

/-- What the clocks of a zone show so many microseconds after the epoch. -/
def onClock? (zone : Zone) (n : Int) : Option Moment :=
  ofWall? (n + zone.offset (n / 1000000) * 1000000 + (epochDay * dayLength : Nat))

/-- How far the clocks of a zone have been set forward in the day before. -/
def gain (zone : Zone) (n : Int) : Int :=
  zone.offset (n / 1000000) - zone.offset (n / 1000000 - 86400)

/-- The clocks a day before are looked at too and, if they have been set back since, the clocks by as
much earlier as they were; all of that has to lie in the calendar. -/
def ofMicroseconds? (zone : Zone) (n : Int) : Option Moment :=
  match onClock? zone n, onClock? zone (n - dayLength) with
  | some shown, some _ =>
    if gain zone n < 0 then (onClock? zone (n + gain zone n * 1000000)).map fun _ => shown
    else some shown
  | _, _ => none

def ofSeconds? (zone : Zone) (seconds : Double) : Option Moment :=
  (microseconds? seconds).bind (ofMicroseconds? zone)

/-- The moment so many milliseconds after the epoch. -/
def ofMilliseconds? (zone : Zone) (milliseconds : Int) : Option Moment :=
  ofSeconds? zone (.ofQuotient (milliseconds < 0) milliseconds.natAbs 1000)

end Receipt.Time.Moment
