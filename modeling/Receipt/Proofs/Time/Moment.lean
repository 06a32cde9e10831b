import Receipt.Proofs.Time.Calendar
import Receipt.Time.Zone

/-!
# Moments and their places on the clock

Every moment is found again from its place on its own clock, and nothing else is: on the clock of
the calendar a place holds one moment without zone, or lies before the first day or behind the last
one, `ofWall?_eq_some_iff` and `ofWall?_eq_none_iff`. So a moment has a counterpart on the clocks of a
zone exactly if the calendar has its instant at offset zero and on these clocks,
`local?_eq_some_iff` and `local?_eq_none_iff`.
-/
namespace Receipt.Time.Moment

/-- Whether a place on the clock is in the calendar. -/
def InCalendar (n : Int) : Prop := dayLength ≤ n ∧ n < ((lastDay + 1) * dayLength : Nat)

instance (n : Int) : Decidable (InCalendar n) := by
  unfold InCalendar
  infer_instance

theorem wall_ediv (m : Moment) : m.wall / (dayLength : Int) = m.date.ordinal := by
  have hclock := m.clock.count_lt
  rw [wall, ← Int.natCast_ediv, Nat.mul_comm, Nat.mul_add_div (by decide),
    Nat.div_eq_of_lt hclock, Nat.add_zero]

theorem wall_emod (m : Moment) : (m.wall % (dayLength : Int)).toNat = m.clock.count := by
  have hclock := m.clock.count_lt
  rw [wall, ← Int.natCast_emod, Int.toNat_natCast, Nat.mul_add_mod', Nat.mod_eq_of_lt hclock]

theorem ofWall?_eq_some_iff {n : Int} {m : Moment} :
    ofWall? n = some m ↔ m.offset = none ∧ m.wall = n := by
  constructor
  · intro h
    unfold ofWall? at h
    split at h
    · next date hdate =>
      cases h
      refine ⟨rfl, ?_⟩
      rw [Date.ofOrdinal?_eq_some_iff] at hdate
      have hpos : (0 : Int) < dayLength := by decide
      have hcount : (Clock.ofCount (n % dayLength).toNat).count = (n % dayLength).toNat := by
        refine Clock.count_ofCount ?_
        have hlt := Int.emod_lt_of_pos n hpos
        omega
      have hnonneg := Int.emod_nonneg n (Int.ne_of_gt hpos)
      rw [wall, Int.natCast_add, Int.natCast_mul, hdate, hcount, Int.toNat_of_nonneg hnonneg]
      exact Int.ediv_mul_add_emod n dayLength
    · cases h
  · rintro ⟨hoffset, rfl⟩
    rw [ofWall?, wall_ediv, Date.ofOrdinal?_ordinal, wall_emod, Clock.ofCount_count, ← hoffset]

/-- A moment is its place on its own clock, and its offset. -/
theorem eq_of_wall_eq {m m' : Moment} (hoffset : m.offset = m'.offset) (hwall : m.wall = m'.wall) :
    m = m' := by
  have hdate : m.date = m'.date := by
    have hordinal := wall_ediv m
    rw [hwall, wall_ediv] at hordinal
    have hfound := Date.ofOrdinal?_eq_some_iff.2 hordinal.symm
    rw [Date.ofOrdinal?_ordinal] at hfound
    exact (Option.some.inj hfound).symm
  have hclock : m.clock = m'.clock := by
    rw [← Clock.ofCount_count m.clock, ← wall_emod, hwall, wall_emod, Clock.ofCount_count]
  cases m
  cases m'
  simp_all

theorem ofWall?_eq_none_iff {n : Int} : ofWall? n = none ↔ ¬ InCalendar n := by
  have hmatch : ofWall? n = none ↔ Date.ofOrdinal? (n / dayLength) = none := by
    unfold ofWall?
    split <;> simp_all
  rw [hmatch, Date.ofOrdinal?_eq_none_iff, InCalendar]
  simp only [dayLength, second, lastDay]
  omega

theorem inCalendar_wall (m : Moment) : InCalendar m.wall := by
  rw [← Decidable.not_not (p := InCalendar m.wall), ← ofWall?_eq_none_iff]
  intro hnone
  have hfound : ofWall? m.wall = some { m with offset := none } :=
    ofWall?_eq_some_iff.2 ⟨rfl, rfl⟩
  rw [hnone] at hfound
  cases hfound

/-- The counterpart of a moment at offset zero shows the same instant. -/
theorem utc?_eq_some_iff {m u : Moment} {offset : Offset} (h : m.offset = some offset) :
    m.utc? = some u ↔ u.offset = some .utc ∧ u.wall = m.wall - offset.east := by
  rw [utc?, h]
  dsimp only
  rw [Option.map_eq_some_iff]
  constructor
  · rintro ⟨v, hv, rfl⟩
    exact ⟨rfl, (ofWall?_eq_some_iff.1 hv).2⟩
  · rintro ⟨hoffset, hwall⟩
    exact ⟨{ u with offset := none }, ofWall?_eq_some_iff.2 ⟨rfl, hwall⟩, by rw [← hoffset]⟩

theorem utc?_eq_none_iff {m : Moment} {offset : Offset} (h : m.offset = some offset) :
    m.utc? = none ↔ ¬ InCalendar (m.wall - offset.east) := by
  rw [utc?, h]
  dsimp only
  rw [Option.map_eq_none_iff, ofWall?_eq_none_iff]

theorem exists_utc? {m : Moment} {offset : Offset} (h : m.offset = some offset)
    (hcalendar : InCalendar (m.wall - offset.east)) : ∃ u, m.utc? = some u := by
  rw [← Option.ne_none_iff_exists', Ne, utc?_eq_none_iff h]
  exact fun hno => hno hcalendar

theorem instant_of_utc? {m u : Moment} {offset : Offset} (h : m.offset = some offset)
    (hu : m.utc? = some u) : u.instant = m.instant := by
  obtain ⟨hoffset, hwall⟩ := (utc?_eq_some_iff h).1 hu
  simp only [instant, sinceEpoch, hoffset, h, hwall, Option.map_some, Option.getD_some, Offset.utc]
  omega

theorem local?_of_utc? {zone : Zone} {m u : Moment} {offset : Offset} (h : m.offset = some offset)
    (hu : m.utc? = some u) :
    m.local? zone = (ofWall? (m.wall - offset.east + (m.offsetIn zone).east)).map
      fun shown => { shown with offset := some (m.offsetIn zone) } := by
  have hthere : u.offsetIn zone = m.offsetIn zone := by
    rw [offsetIn, offsetIn, instant_of_utc? h hu]
  rw [← ((utc?_eq_some_iff h).1 hu).2, ← hthere, local?, h, hu]
  rfl

/-- The counterpart of a moment on the clocks of a zone shows the same instant. -/
theorem local?_eq_some_iff {zone : Zone} {m shown : Moment} {offset : Offset}
    (h : m.offset = some offset) :
    m.local? zone = some shown ↔ InCalendar (m.wall - offset.east) ∧
      shown.offset = some (m.offsetIn zone) ∧
      shown.wall = m.wall - offset.east + (m.offsetIn zone).east := by
  by_cases hcalendar : InCalendar (m.wall - offset.east)
  · obtain ⟨u, hu⟩ := exists_utc? h hcalendar
    rw [local?_of_utc? h hu, Option.map_eq_some_iff, and_iff_right hcalendar]
    constructor
    · rintro ⟨v, hv, rfl⟩
      exact ⟨rfl, (ofWall?_eq_some_iff.1 hv).2⟩
    · rintro ⟨hoffset, hwall⟩
      refine ⟨{ shown with offset := none }, ofWall?_eq_some_iff.2 ⟨rfl, hwall⟩, ?_⟩
      rw [← hoffset]
  · have hnone := (utc?_eq_none_iff h).2 hcalendar
    rw [local?, h, hnone]
    exact iff_of_false nofun fun hall => hcalendar hall.1

theorem local?_eq_none_iff {zone : Zone} {m : Moment} {offset : Offset}
    (h : m.offset = some offset) :
    m.local? zone = none ↔ ¬ (InCalendar (m.wall - offset.east) ∧
      InCalendar (m.wall - offset.east + (m.offsetIn zone).east)) := by
  by_cases hcalendar : InCalendar (m.wall - offset.east)
  · obtain ⟨u, hu⟩ := exists_utc? h hcalendar
    rw [local?_of_utc? h hu, Option.map_eq_none_iff, ofWall?_eq_none_iff,
      and_iff_right hcalendar]
  · have hnone := (utc?_eq_none_iff h).2 hcalendar
    rw [local?, h, hnone]
    exact iff_of_true rfl fun hall => hcalendar hall.1

end Receipt.Time.Moment
