import Receipt.Time.Moment

/-!
# Local time

A zone says how far its clocks are ahead of UTC at every second since the epoch and what the offset
is called then. `Moment.local?` shows the instant of a moment on the clocks of a zone, which fails
when that leaves the calendar.
-/
namespace Receipt.Time

structure Zone where
  /-- Seconds east of UTC, at a second since the epoch. -/
  offset : Int → Int
  bounded : ∀ t, -86400 < offset t ∧ offset t < 86400
  /-- What the offset is called. -/
  name : Int → String
  /-- The second since the epoch at which the clocks show so many seconds. -/
  second : Int → Int

namespace Zone

def utc : Zone := ⟨fun _ => 0, fun _ => by decide, fun _ => "UTC", id⟩

def offsetAt (zone : Zone) (t : Int) : Offset where
  east := zone.offset t * 1000000
  lower := by have := zone.bounded t; omega
  upper := by have := zone.bounded t; omega

end Zone

namespace Moment

/-- Microseconds since the epoch at UTC, for which a moment without offset is taken. -/
def instant (m : Moment) : Int := m.sinceEpoch - (m.offset.map Offset.east).getD 0

/-- The offset of a zone at the instant of a moment. -/
def offsetIn (zone : Zone) (m : Moment) : Offset := zone.offsetAt (m.instant / 1000000)

/-- The instant of a moment at offset zero on the clocks of a zone. -/
def ofUtc? (zone : Zone) (u : Moment) : Option Moment :=
  (ofWall? (u.wall + (u.offsetIn zone).east)).map fun shown =>
    { shown with offset := some (u.offsetIn zone) }

/-- The same instant on local clocks; a moment without offset is taken as it is. -/
def local? (zone : Zone) (m : Moment) : Option Moment :=
  match m.offset with
  | none => some m
  | some _ => m.utc?.bind (ofUtc? zone)

end Moment
end Receipt.Time
