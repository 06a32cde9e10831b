import Receipt.Proofs.Number.Whole
import Receipt.Proofs.Time.Moment
import Receipt.Time.Epoch

/-!
# Whole seconds since the epoch

A whole number of seconds since the epoch is a binary64 number, so a moment of UTC is found from its
milliseconds without rounding: `ofMilliseconds?_of_sinceEpoch`. The first year of the calendar is
left out, as its first day cannot be converted.
-/
namespace Receipt.Time.Moment

theorem microseconds?_of_isWhole {d : Double} {negative : Bool} {size : Nat}
    (h : d.IsWhole negative size) :
    microseconds? d = some ((if negative then -(size : Int) else size) * 1000000) := by
  rw [microseconds?, h.truncate?_eq, h.fraction_eq, Double.zero_mulNat, Double.nearest?_zero]
  exact congrArg some (Int.add_zero _)

theorem signed_natAbs (n : Int) : (if decide (n < 0) then -(n.natAbs : Int) else n.natAbs) = n := by
  by_cases h : n < 0
  · rw [if_pos (decide_eq_true h)]
    omega
  · rw [if_neg (by simpa using h)]
    omega

theorem natAbs_lt_of_sinceEpoch {u : Moment} {s : Int} (h : u.sinceEpoch = s * 1000000) :
    s.natAbs < 2 ^ 53 := by
  obtain ⟨hfirst, hlast⟩ := u.inCalendar_wall
  simp only [sinceEpoch, epochDay, dayLength, second, lastDay] at h hfirst hlast
  omega

theorem onClock?_utc (n : Int) :
    onClock? .utc n = ofWall? (n + (epochDay * dayLength : Nat)) := by
  simp only [onClock?, Zone.utc, Int.zero_mul, Int.add_zero]

/-- The day before a moment of a later year than the first is in the calendar. -/
theorem exists_onClock?_before {u : Moment} (hyear : 2 ≤ u.date.year) :
    ∃ before, onClock? .utc (u.sinceEpoch - dayLength) = some before := by
  have hordinal : 365 < u.date.ordinal := Date.le_ordinal hyear
  have hlast := u.inCalendar_wall.2
  rw [← Option.ne_none_iff_exists', Ne, onClock?_utc, ofWall?_eq_none_iff]
  refine fun hno => hno ⟨?_, ?_⟩
  · simp only [sinceEpoch, wall, dayLength, second]
    omega
  · simp only [sinceEpoch, dayLength, second] at hlast ⊢
    omega

/-- UTC is never set back. -/
theorem ofMicroseconds?_utc {n : Int} {shown before : Moment}
    (hshown : onClock? .utc n = some shown)
    (hbefore : onClock? .utc (n - dayLength) = some before) :
    ofMicroseconds? .utc n = some shown := by
  rw [ofMicroseconds?, hshown, hbefore]
  rfl

/-- What is counted from the epoch has no offset. -/
theorem offset_of_ofSeconds? {zone : Zone} {d : Double} {m : Moment}
    (h : ofSeconds? zone d = some m) : m.offset = none := by
  obtain ⟨n, -, hm⟩ := Option.bind_eq_some_iff.1 h
  unfold ofMicroseconds? at hm
  split at hm
  · next shown before hshown _ =>
    have hoffset : shown.offset = none := (ofWall?_eq_some_iff.1 hshown).1
    split at hm
    · obtain ⟨-, -, rfl⟩ := Option.map_eq_some_iff.1 hm
      exact hoffset
    · cases hm
      exact hoffset
  · cases hm

theorem ofMilliseconds?_of_sinceEpoch {u : Moment} (hoffset : u.offset = none)
    (hyear : 2 ≤ u.date.year) {s : Int} (hs : s ≠ 0) (hu : u.sinceEpoch = s * 1000000) :
    ofMilliseconds? .utc (s * 1000) = some u := by
  have hwhole : (Double.ofQuotient (decide (s < 0)) (s.natAbs * 1000) 1000).IsWhole
      (decide (s < 0)) s.natAbs :=
    Double.isWhole_ofQuotient _ (Int.natAbs_pos.2 hs) (natAbs_lt_of_sinceEpoch hu) (by decide)
  have hnegative : decide (s * 1000 < 0) = decide (s < 0) := by
    rw [decide_eq_decide]
    omega
  have hcount := microseconds?_of_isWhole hwhole
  rw [signed_natAbs, ← hu] at hcount
  have hshown : onClock? .utc u.sinceEpoch = some u := by
    rw [onClock?_utc, ofWall?_eq_some_iff, sinceEpoch]
    exact ⟨hoffset, by omega⟩
  obtain ⟨before, hbefore⟩ := exists_onClock?_before hyear
  rw [ofMilliseconds?, hnegative, Int.natAbs_mul, ofSeconds?,
    show (1000 : Int).natAbs = 1000 from rfl, hcount, Option.bind_some]
  exact ofMicroseconds?_utc hshown hbefore

end Receipt.Time.Moment
