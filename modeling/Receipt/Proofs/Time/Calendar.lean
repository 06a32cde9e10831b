import Receipt.Proofs.Except
import Receipt.Time.Calendar

/-!
# Days and their numbers

The numbers of the days run from one to `lastDay`, each number is that of one day, and the day is
found from its number: `Date.ofOrdinal?_eq_some_iff` and `Date.ofOrdinal?_eq_none_iff`. A year is
four places, each counted from zero: cycle, century, group of four years, and year in the group.
-/
namespace Receipt.Time

def yearLength (year : Nat) : Nat := if isLeap year then 366 else 365

/-- The number of the last day of the year 9999. -/
def lastDay : Nat := 3652059

section years
variable {cycle century group single : Nat}

theorem daysBeforeYear_places (hcentury : century < 4) (hgroup : group < 25)
    (hsingle : single < 4) :
    daysBeforeYear (400 * cycle + 100 * century + 4 * group + single + 1) =
      146097 * cycle + 36524 * century + 1461 * group + 365 * single := by
  simp only [daysBeforeYear]
  omega

/-- The last year of a group is a leap year, except in the last group of a century that is not the
last one of its cycle. -/
theorem isLeap_places (hcentury : century < 4) (hgroup : group < 25) (hsingle : single < 4) :
    isLeap (400 * cycle + 100 * century + 4 * group + single + 1) = true ↔
      single = 3 ∧ (group ≠ 24 ∨ century = 3) := by
  simp only [isLeap, Bool.and_eq_true, Bool.or_eq_true, decide_eq_true_eq]
  omega

theorem yearLength_places (hcentury : century < 4) (hgroup : group < 25) (hsingle : single < 4) :
    yearLength (400 * cycle + 100 * century + 4 * group + single + 1) =
      if single = 3 ∧ (group ≠ 24 ∨ century = 3) then 366 else 365 := by
  simp only [yearLength, isLeap_places hcentury hgroup hsingle]

theorem exists_places {year : Nat} (h : 1 ≤ year) :
    ∃ cycle century group single, century < 4 ∧ group < 25 ∧ single < 4 ∧
      year = 400 * cycle + 100 * century + 4 * group + single + 1 :=
  ⟨(year - 1) / 400, (year - 1) % 400 / 100, (year - 1) % 100 / 4, (year - 1) % 4,
    by omega, by omega, by omega, by omega⟩

end years

/-- A day is found in its year. -/
theorem yearAndDay_daysBeforeYear {year day : Nat} (hyear : 1 ≤ year)
    (hday : day < yearLength year) : yearAndDay (daysBeforeYear year + day) = (year, day) := by
  obtain ⟨cycle, century, group, single, hcentury, hgroup, hsingle, rfl⟩ := exists_places hyear
  rw [yearLength_places hcentury hgroup hsingle] at hday
  rw [daysBeforeYear_places hcentury hgroup hsingle]
  -- Only the last year of a group can have the day 365, and only where a leap day is.
  have hlast : day < 365 ∨ day = 365 ∧ single = 3 ∧ (group ≠ 24 ∨ century = 3) := by
    split at hday <;> omega
  clear hday
  generalize hn : 146097 * cycle + 36524 * century + 1461 * group + 365 * single + day = n
  have hcycle : n / 146097 = cycle := by omega
  have hinCycle : n % 146097 = 36524 * century + 1461 * group + 365 * single + day := by omega
  have hinCentury : min 3 (n % 146097 / 36524) = century := by omega
  have hgroupIn : (1461 * group + 365 * single + day) / 1461 = group := by omega
  have hinGroup : (1461 * group + 365 * single + day) % 1461 = 365 * single + day := by omega
  have hsingleIn : min 3 ((365 * single + day) / 365) = single := by omega
  have hrest : n % 146097 - 36524 * century = 1461 * group + 365 * single + day := by omega
  simp only [yearAndDay, hcycle, hinCentury, hrest, hgroupIn, hinGroup, hsingleIn]
  congr 1
  omega

/-- And a day that is found in a year is there. -/
theorem exists_year (n : Nat) :
    ∃ year day, 1 ≤ year ∧ day < yearLength year ∧ n = daysBeforeYear year + day := by
  have hinCentury : n % 146097 - 36524 * min 3 (n % 146097 / 36524) < 36525 := by omega
  generalize hcentury : min 3 (n % 146097 / 36524) = century at hinCentury
  generalize hcenturyDay : n % 146097 - 36524 * century = centuryDay at hinCentury
  generalize hgroup : centuryDay / 1461 = group
  generalize hgroupDay : centuryDay % 1461 = groupDay
  generalize hsingle : min 3 (groupDay / 365) = single
  have hc : century < 4 := by omega
  have hg : group < 25 := by omega
  have hs : single < 4 := by omega
  refine ⟨400 * (n / 146097) + 100 * century + 4 * group + single + 1, groupDay - 365 * single,
    by omega, ?_, ?_⟩
  · rw [yearLength_places hc hg hs]
    split <;> omega
  · rw [daysBeforeYear_places hc hg hs]
    omega

section months

/-- The days of the months before one. -/
def daysBefore (lengths : List Nat) (i : Nat) : Nat := (lengths.take i).foldl (· + ·) 0

theorem daysBefore_cons_succ (length : Nat) (more : List Nat) (i : Nat) :
    daysBefore (length :: more) (i + 1) = length + daysBefore more i := by
  unfold daysBefore
  rw [List.take_succ_cons, List.foldl_cons, Nat.add_comm 0 length]
  exact List.foldl_assoc

/-- A day is found in its month. -/
theorem monthAndDay_daysBefore {lengths : List Nat} {i day : Nat} (h : day < lengths[i]?.getD 0)
    (first : Nat) : monthAndDay first lengths (daysBefore lengths i + day) = (first + i, day + 1) := by
  induction lengths generalizing first i with
  | nil => cases h
  | cons length more ih =>
      cases i with
      | zero =>
          have hday : daysBefore (length :: more) 0 + day < length := by
            simpa [daysBefore] using h
          rw [monthAndDay, if_pos hday]
          simp [daysBefore]
      | succ i =>
          rw [daysBefore_cons_succ, Nat.add_assoc, monthAndDay, if_neg (by omega),
            Nat.add_sub_cancel_left, ih h, Nat.add_right_comm, Nat.add_assoc]

/-- A day of the year is in one of the months. -/
theorem exists_month {lengths : List Nat} {n : Nat} (h : n < daysBefore lengths lengths.length) :
    ∃ i day, day < lengths[i]?.getD 0 ∧ n = daysBefore lengths i + day := by
  induction lengths generalizing n with
  | nil => cases h
  | cons length more ih =>
      by_cases hhere : n < length
      · exact ⟨0, n, hhere, (Nat.zero_add n).symm⟩
      · rw [List.length_cons, daysBefore_cons_succ] at h
        obtain ⟨i, day, hday, hn⟩ := ih (n := n - length) (by omega)
        refine ⟨i + 1, day, hday, ?_⟩
        rw [daysBefore_cons_succ]
        omega

theorem daysBefore_add_lt {lengths : List Nat} {i day : Nat} (h : day < lengths[i]?.getD 0) :
    daysBefore lengths i + day < daysBefore lengths lengths.length := by
  induction lengths generalizing i with
  | nil => cases h
  | cons length more ih =>
      rw [List.length_cons, daysBefore_cons_succ]
      cases i with
      | zero =>
          have hday : day < length := h
          simp only [daysBefore, List.take_zero, List.foldl_nil]
          omega
      | succ i =>
          have hmore : daysBefore more i + day < daysBefore more more.length := ih h
          rw [daysBefore_cons_succ]
          omega

theorem daysBefore_monthLengths (year : Nat) :
    daysBefore (monthLengths (isLeap year)) (monthLengths (isLeap year)).length = yearLength year := by
  unfold yearLength
  cases isLeap year <;> rfl

end months

namespace Date

theorem month_pos (d : Date) : 1 ≤ d.month := by
  have hday := Nat.le_trans d.day_pos d.day_le
  rw [Nat.one_le_iff_ne_zero]
  intro hzero
  rw [monthLength, if_pos hzero] at hday
  omega

theorem day_lt (d : Date) : d.day - 1 < (monthLengths (isLeap d.year))[d.month - 1]?.getD 0 := by
  have hday := d.day_le
  rw [monthLength, if_neg (Nat.one_le_iff_ne_zero.1 d.month_pos)] at hday
  have hpos := d.day_pos
  omega

theorem month_le (d : Date) : d.month ≤ 12 := by
  have hlength : (monthLengths (isLeap d.year)).length = 12 := rfl
  rw [← Nat.not_lt]
  intro hlate
  have hday := d.day_lt
  rw [List.getElem?_eq_none (by omega)] at hday
  cases hday

theorem dayOfYear_eq (d : Date) :
    d.dayOfYear = daysBefore (monthLengths (isLeap d.year)) (d.month - 1) + (d.day - 1) + 1 := by
  have hpos := d.day_pos
  rw [dayOfYear, daysBeforeMonth, daysBefore]
  omega

theorem dayOfYear_le (d : Date) : d.dayOfYear ≤ yearLength d.year := by
  rw [dayOfYear_eq, ← daysBefore_monthLengths]
  exact daysBefore_add_lt d.day_lt

theorem make?_self (d : Date) : make? d.year d.month d.day = .ok d := by
  have hmonth : ¬ (d.month = 0 ∨ 12 < d.month) := by
    have hpos := d.month_pos
    have hle := d.month_le
    omega
  rw [make?, dif_pos ⟨d.year_pos, d.year_le⟩, if_neg hmonth, dif_pos ⟨d.day_pos, d.day_le⟩]

theorem of_make?_eq_ok {year month day : Nat} {d : Date} (h : make? year month day = .ok d) :
    d.year = year ∧ d.month = month ∧ d.day = day := by
  unfold make? at h
  split at h
  · split at h
    · cases h
    · split at h
      · cases h
        exact ⟨rfl, rfl, rfl⟩
      · cases h
  · cases h

/-- The day that is looked for is looked for in its year, and there in its month. -/
theorem ofOrdinal?_place {year i day : Nat} (hyear : 1 ≤ year)
    (hday : day < (monthLengths (isLeap year))[i]?.getD 0) :
    ofOrdinal? ((daysBeforeYear year + (daysBefore (monthLengths (isLeap year)) i + day) + 1 : Nat) :
      Int) = (make? year (i + 1) (day + 1)).toOption := by
  have hinYear : daysBefore (monthLengths (isLeap year)) i + day < yearLength year := by
    rw [← daysBefore_monthLengths]
    exact daysBefore_add_lt hday
  rw [ofOrdinal?, if_neg (by omega), Int.toNat_natCast, Nat.add_sub_cancel,
    yearAndDay_daysBeforeYear hyear hinYear]
  dsimp only
  rw [monthAndDay_daysBefore hday, Nat.add_comm 1 i]
  cases make? year (i + 1) (day + 1) <;> rfl

theorem ofOrdinal?_ordinal (d : Date) : ofOrdinal? d.ordinal = some d := by
  have hplace := ofOrdinal?_place d.year_pos d.day_lt
  rwa [Nat.sub_add_cancel d.month_pos, Nat.sub_add_cancel d.day_pos, make?_self,
    Nat.add_assoc, ← dayOfYear_eq] at hplace

/-- Every positive number is that of a day, unless its year is too late. -/
theorem exists_place {n : Nat} (h : 1 ≤ n) :
    ∃ year i day, 1 ≤ year ∧ day < (monthLengths (isLeap year))[i]?.getD 0 ∧
      n = daysBeforeYear year + (daysBefore (monthLengths (isLeap year)) i + day) + 1 := by
  obtain ⟨year, inYear, hyear, hin, hn⟩ := exists_year (n - 1)
  rw [← daysBefore_monthLengths] at hin
  obtain ⟨i, day, hday, rfl⟩ := exists_month hin
  exact ⟨year, i, day, hyear, hday, by omega⟩

theorem ofOrdinal?_eq_some_iff {n : Int} {d : Date} :
    ofOrdinal? n = some d ↔ (d.ordinal : Int) = n := by
  constructor
  · intro h
    have hpos : 1 ≤ n := by
      rw [← Int.not_lt]
      intro hless
      rw [ofOrdinal?, if_pos hless] at h
      cases h
    obtain ⟨n, rfl⟩ := Int.eq_ofNat_of_zero_le (by omega : 0 ≤ n)
    obtain ⟨year, i, day, hyear, hday, rfl⟩ := exists_place (by omega : 1 ≤ n)
    rw [ofOrdinal?_place hyear hday] at h
    obtain ⟨rfl, hmonth, hday'⟩ := of_make?_eq_ok (toOption_eq_some h)
    rw [ordinal, dayOfYear_eq, hmonth, hday']
    rfl
  · rintro rfl
    exact ofOrdinal?_ordinal d

theorem ordinal_pos (d : Date) : 1 ≤ d.ordinal := by
  rw [ordinal, dayOfYear_eq]
  omega

theorem ordinal_le (d : Date) : d.ordinal ≤ lastDay := by
  have hday := d.dayOfYear_le
  have hyear := d.year_le
  rw [ordinal, lastDay]
  by_cases hlast : d.year = 9999
  · rw [hlast] at hday ⊢
    exact Nat.add_le_add_left hday _
  · have hlong : yearLength d.year ≤ 366 := by
      unfold yearLength
      split <;> decide
    simp only [daysBeforeYear]
    omega

/-- The first days of a year have all the years before it before them. -/
theorem le_ordinal {d : Date} {year : Nat} (h : year ≤ d.year) :
    daysBeforeYear year < d.ordinal := by
  have hday : 1 ≤ d.dayOfYear := by
    rw [dayOfYear_eq]
    omega
  rw [ordinal]
  rcases Nat.eq_or_lt_of_le h with rfl | hlater
  · omega
  · simp only [daysBeforeYear]
    omega

theorem exists_of_place {year i day : Nat} (hyear : 1 ≤ year) (hlast : year ≤ 9999)
    (hday : day < (monthLengths (isLeap year))[i]?.getD 0) :
    ∃ d, make? year (i + 1) (day + 1) = .ok d := by
  have hlength : (monthLengths (isLeap year)).length = 12 := rfl
  have hmonth : ¬ (i + 1 = 0 ∨ 12 < i + 1) := by
    rintro (hzero | hlate)
    · cases hzero
    · rw [List.getElem?_eq_none (by omega)] at hday
      cases hday
  have hin : day + 1 ≤ monthLength year (i + 1) := by
    rw [monthLength, if_neg (Nat.succ_ne_zero i), Nat.add_sub_cancel]
    exact hday
  rw [make?, dif_pos ⟨hyear, hlast⟩, if_neg hmonth, dif_pos ⟨by omega, hin⟩]
  exact ⟨_, rfl⟩

/-- The calendar has no other days than those with the numbers from one to the last. -/
theorem ofOrdinal?_eq_none_iff {n : Int} : ofOrdinal? n = none ↔ n < 1 ∨ (lastDay : Int) < n := by
  constructor
  · intro hnone
    rcases Int.lt_or_le n 1 with hless | hpos
    · exact .inl hless
    · obtain ⟨n, rfl⟩ := Int.eq_ofNat_of_zero_le (by omega : 0 ≤ n)
      obtain ⟨year, i, day, hyear, hday, rfl⟩ := exists_place (by omega : 1 ≤ n)
      rcases Nat.lt_or_ge 9999 year with hlate | hlast
      · refine .inr (Int.ofNat_lt.2 ?_)
        simp only [lastDay, daysBeforeYear]
        omega
      · obtain ⟨d, hd⟩ := exists_of_place hyear hlast hday
        rw [ofOrdinal?_place hyear hday, hd] at hnone
        cases hnone
  · intro hout
    cases hfound : ofOrdinal? n with
    | none => rfl
    | some d =>
        have hfirst := d.ordinal_pos
        have hlast := d.ordinal_le
        rw [ofOrdinal?_eq_some_iff] at hfound
        omega

end Date

end Receipt.Time
