import Mathlib.Algebra.Order.Field.Power
import Mathlib.Data.Rat.Cast.Order
import Mathlib.Tactic.Linarith
import Mathlib.Tactic.Positivity
import Mathlib.Tactic.Ring
import Receipt.Number.Shortest

/-!
# Seventeen digits are enough

The search for the shortest decimal of a number ends with a decimal, and not with nothing:
`digits_pos`. On the grid of seventeen digits the points lie closer together than the interval of
reals that round to the number is wide, so one of the two neighbours of the number lies within.
-/
namespace Receipt.Double

theorem pow_toNat {b : ℚ} (hb : b ≠ 0) (k : ℤ) : b ^ k.toNat = b ^ k * b ^ (-k).toNat := by
  rw [← zpow_natCast b k.toNat, ← zpow_natCast b (-k).toNat, ← zpow_add₀ hb]
  congr 1
  omega

/-- What both sides of a comparison are multiplied by, so that they are whole numbers. -/
def scale (k u : ℤ) : ℚ := 10 ^ (-k).toNat * 2 ^ (-u).toNat

theorem scale_pos (k u : ℤ) : 0 < scale k u := by
  unfold scale
  positivity

theorem scaled_decimal (n : ℕ) (k u : ℤ) :
    (((n * Nat.pow 10 k.toNat) <<< (-u).toNat : ℕ) : ℚ) = n * 10 ^ k * scale k u := by
  rw [Nat.shiftLeft_eq, scale]
  push_cast [Nat.pow_eq]
  rw [pow_toNat (by norm_num : (10 : ℚ) ≠ 0) k]
  ring

theorem scaled_binary (q : ℕ) (k u : ℤ) :
    ((q <<< u.toNat * Nat.pow 10 (-k).toNat : ℕ) : ℚ) = q * 2 ^ u * scale k u := by
  rw [Nat.shiftLeft_eq, scale]
  push_cast [Nat.pow_eq]
  rw [pow_toNat (by norm_num : (2 : ℚ) ≠ 0) u]
  ring

theorem compareDecimal_eq_gt {n q : ℕ} {k u : ℤ} :
    compareDecimal n k q u = .gt ↔ (q : ℚ) * 2 ^ u < n * 10 ^ k := by
  rw [compareDecimal, Nat.compare_eq_gt, ← Nat.cast_lt (α := ℚ), scaled_decimal, scaled_binary]
  exact mul_lt_mul_iff_left₀ (scale_pos k u)

theorem compareDecimal_eq_lt {n q : ℕ} {k u : ℤ} :
    compareDecimal n k q u = .lt ↔ (n : ℚ) * 10 ^ k < q * 2 ^ u := by
  rw [compareDecimal, Nat.compare_eq_lt, ← Nat.cast_lt (α := ℚ), scaled_decimal, scaled_binary]
  exact mul_lt_mul_iff_left₀ (scale_pos k u)

namespace Interval

variable {i : Interval} {k : ℤ}

/-- The number at the grid of multiples of `10 ^ k`: the point below it. -/
def below (i : Interval) (k : ℤ) : ℕ :=
  i.middle <<< i.unit.toNat * Nat.pow 10 (-k).toNat / (Nat.pow 10 k.toNat <<< (-i.unit).toNat)

theorem below_le (i : Interval) (k : ℤ) :
    (i.below k : ℚ) * 10 ^ k ≤ i.middle * 2 ^ i.unit := by
  rw [← not_lt, ← compareDecimal_eq_gt, compareDecimal, Nat.compare_eq_gt, not_lt,
    Nat.shiftLeft_eq, mul_assoc, ← Nat.shiftLeft_eq]
  exact Nat.div_mul_le_self _ _

theorem lt_below_succ (i : Interval) (k : ℤ) :
    (i.middle : ℚ) * 2 ^ i.unit < (i.below k + 1 : ℕ) * 10 ^ k := by
  rw [← compareDecimal_eq_gt, compareDecimal, Nat.compare_eq_gt, Nat.shiftLeft_eq (_ * _),
    mul_assoc, ← Nat.shiftLeft_eq]
  have hpos : 0 < Nat.pow 10 k.toNat <<< (-i.unit).toNat := by
    rw [Nat.shiftLeft_eq, Nat.pow_eq]
    positivity
  exact Nat.lt_mul_of_div_lt (Nat.lt_succ_self _) hpos

theorem holds_of_inside {n : ℕ} (hlow : (i.low : ℚ) * 2 ^ i.unit < n * 10 ^ k)
    (hhigh : (n : ℚ) * 10 ^ k < i.high * 2 ^ i.unit) : i.holds n k = true := by
  rw [holds, compareDecimal_eq_gt.mpr hlow, compareDecimal_eq_lt.mpr hhigh]

theorem pos_of_holds {n : ℕ} (hlow : 0 < i.low) (hhigh : 0 < i.high) (h : i.holds n k = true) :
    0 < n := by
  rw [Nat.pos_iff_ne_zero]
  rintro rfl
  have hsmall (q : ℕ) (hq : 0 < q) : compareDecimal 0 k q i.unit = .lt := by
    rw [compareDecimal_eq_lt, Nat.cast_zero, zero_mul]
    positivity
  rw [holds, hsmall i.low hlow, hsmall i.high hhigh] at h
  cases h

/-- A neighbour is found if one of the two rounds to the number. -/
theorem onGrid?_cases (i : Interval) (k : ℤ) :
    i.onGrid? k = none ∧ i.holds (i.below k) k = false ∧ i.holds (i.below k + 1) k = false ∨
      ∃ n, i.onGrid? k = some n ∧ i.holds n k = true := by
  cases hbelow : i.holds (i.below k) k with
  | false =>
      cases hnext : i.holds (i.below k + 1) k with
      | false =>
          refine .inl ⟨?_, rfl, rfl⟩
          unfold below at hbelow hnext
          simp only [onGrid?, hbelow, hnext]
      | true =>
          refine .inr ⟨i.below k + 1, ?_, hnext⟩
          unfold below at hbelow hnext ⊢
          simp only [onGrid?, hbelow, hnext]
  | true =>
      cases hnext : i.holds (i.below k + 1) k with
      | false =>
          refine .inr ⟨i.below k, ?_, hbelow⟩
          unfold below at hbelow hnext ⊢
          simp only [onGrid?, hbelow, hnext]
      | true =>
          cases hhalf : compareDecimal (2 * i.below k + 1) k (2 * i.middle) i.unit with
          | gt =>
              refine .inr ⟨i.below k, ?_, hbelow⟩
              unfold below at hbelow hnext hhalf ⊢
              simp only [onGrid?, hbelow, hnext, hhalf]
          | lt =>
              refine .inr ⟨i.below k + 1, ?_, hnext⟩
              unfold below at hbelow hnext hhalf ⊢
              simp only [onGrid?, hbelow, hnext, hhalf]
          | eq =>
              refine .inr ⟨if i.below k % 2 = 0 then i.below k else i.below k + 1, ?_, ?_⟩
              · unfold below at hbelow hnext hhalf ⊢
                simp only [onGrid?, hbelow, hnext, hhalf]
              · split
                · exact hbelow
                · exact hnext

theorem holds_of_onGrid? {n : ℕ} (h : i.onGrid? k = some n) : i.holds n k = true := by
  rcases i.onGrid?_cases k with ⟨hnone, -⟩ | ⟨m, hm, hholds⟩
  · rw [hnone] at h
    cases h
  · rw [hm] at h
    cases h
    exact hholds

/-- Where no neighbour is found, the points of the grid lie further apart than the interval is
wide. -/
theorem width_le_of_onGrid?_eq_none (hlow : i.low < i.middle) (hhigh : i.middle < i.high)
    (h : i.onGrid? k = none) :
    ((i.high : ℚ) - i.low) * 2 ^ i.unit ≤ 10 ^ k := by
  have hnone : i.holds (i.below k) k = false ∧ i.holds (i.below k + 1) k = false := by
    rcases i.onGrid?_cases k with ⟨-, hnone⟩ | ⟨n, hn, -⟩
    · exact hnone
    · rw [hn] at h
      cases h
  have htwo : (0 : ℚ) < 2 ^ i.unit := by positivity
  have hlowest : (i.low : ℚ) * 2 ^ i.unit < i.middle * 2 ^ i.unit :=
    mul_lt_mul_of_pos_right (by exact_mod_cast hlow) htwo
  have hhighest : (i.middle : ℚ) * 2 ^ i.unit < i.high * 2 ^ i.unit :=
    mul_lt_mul_of_pos_right (by exact_mod_cast hhigh) htwo
  have hbelow : (i.below k : ℚ) * 10 ^ k ≤ i.low * 2 ^ i.unit := by
    by_contra hinside
    have hholds := holds_of_inside (not_le.mp hinside) ((i.below_le k).trans_lt hhighest)
    rw [hnone.1] at hholds
    cases hholds
  have hnext : (i.high : ℚ) * 2 ^ i.unit ≤ (i.below k + 1 : ℕ) * 10 ^ k := by
    by_contra hinside
    have hholds := holds_of_inside (hlowest.trans (i.lt_below_succ k)) (not_le.mp hinside)
    rw [hnone.2] at hholds
    cases hholds
  push_cast at hnext
  linarith

/-- The search gives a number that the interval holds, if there is one on its last grid. -/
theorem pos_search (hlow : 0 < i.low) (hhigh : 0 < i.high) {more : ℕ}
    (h : i.onGrid? (k - more) ≠ none) : 0 < (i.search k more).1 := by
  induction more generalizing k with
  | zero =>
      rw [Nat.cast_zero, sub_zero] at h
      obtain ⟨n, hn⟩ := Option.ne_none_iff_exists'.mp h
      rw [search, hn]
      exact pos_of_holds hlow hhigh (holds_of_onGrid? hn)
  | succ more ih =>
      rw [search]
      split
      · next n hn => exact pos_of_holds hlow hhigh (holds_of_onGrid? hn)
      · refine ih ?_
        have hlast : k - 1 - (more : ℤ) = k - ((more + 1 : ℕ) : ℤ) := by
          push_cast
          ring
        rw [hlast]
        exact h

end Interval

section Size

theorem pow_le_of_decimalLength {n : ℕ} (hn : 0 < n) : 10 ^ (decimalLength n - 1) ≤ n := by
  by_contra hless
  rw [not_le] at hless
  have hlength : 0 < decimalLength n := Nat.length_toDigits_pos
  by_cases hone : decimalLength n = 1
  · rw [hone] at hless
    omega
  · have hfewer : decimalLength n ≤ decimalLength n - 1 :=
      (Nat.length_toDigits_le_iff (by decide) (by omega)).mpr hless
    omega

theorem lt_pow_decimalLength (n : ℕ) : n < 10 ^ decimalLength n :=
  (Nat.length_toDigits_le_iff (by decide) Nat.length_toDigits_pos).mp le_rfl

theorem floorLog10_cases (num den : ℕ) :
    (den * 10 ^ (floorLog10 num den).toNat ≤ num * 10 ^ (-floorLog10 num den).toNat) ∨
      floorLog10 num den = ((decimalLength num : ℤ) - decimalLength den) - 1 := by
  unfold floorLog10
  generalize (decimalLength num : ℤ) - decimalLength den = k
  by_cases hk : 0 ≤ k
  · have hzero : (-k).toNat = 0 := by omega
    simp only [hk, if_true]
    split
    · next hfits =>
      rw [hzero, pow_zero, mul_one]
      exact .inl hfits
    · exact .inr rfl
  · have hzero : k.toNat = 0 := by omega
    simp only [hk, if_false]
    split
    · next hfits =>
      rw [hzero, pow_zero, mul_one]
      exact .inl hfits
    · exact .inr rfl

/-- A quotient is at least the power of ten that its length tells. -/
theorem floorLog10_le {num : ℕ} (hnum : 0 < num) (den : ℕ) :
    (den : ℚ) * 10 ^ floorLog10 num den ≤ num := by
  have hten : (10 : ℚ) ≠ 0 := by norm_num
  rcases floorLog10_cases num den with hfits | hless
  · have hcast : (den : ℚ) * 10 ^ (floorLog10 num den).toNat ≤
        num * 10 ^ (-floorLog10 num den).toNat := by exact_mod_cast hfits
    rw [pow_toNat hten, ← mul_assoc] at hcast
    exact le_of_mul_le_mul_right hcast (by positivity)
  · have hlength : 0 < decimalLength num := Nat.length_toDigits_pos
    have hexponent : floorLog10 num den =
        ((decimalLength num - 1 : ℕ) : ℤ) - (decimalLength den : ℤ) := by
      omega
    have hdenominator : (den : ℚ) ≤ 10 ^ decimalLength den := by
      exact_mod_cast (lt_pow_decimalLength den).le
    have hnumerator : (10 : ℚ) ^ (decimalLength num - 1) ≤ num := by
      exact_mod_cast pow_le_of_decimalLength hnum
    calc (den : ℚ) * 10 ^ floorLog10 num den
        ≤ 10 ^ decimalLength den * 10 ^ floorLog10 num den :=
          mul_le_mul_of_nonneg_right hdenominator (by positivity)
      _ = 10 ^ (decimalLength num - 1) := by
          rw [hexponent, zpow_sub₀ hten, zpow_natCast, zpow_natCast, ← mul_div_assoc,
            mul_div_cancel_left₀ _ (by positivity)]
      _ ≤ num := hnumerator

end Size

/-- A number of at most 53 bits, of which the last stands for no less than the least binary64
number. -/
structure Fits (significand : ℕ) (exponent : ℤ) : Prop where
  significand : significand < 2 ^ 53
  exponent : leastExponent ≤ exponent

section Place

variable {m : ℕ} {e : ℤ}

theorem quotient_pos (hm : 0 < m) : 0 < (quotient m e).1 ∧ 0 < (quotient m e).2 := by
  unfold quotient
  split
  · rw [Nat.shiftLeft_eq]
    exact ⟨by positivity, Nat.one_pos⟩
  · rw [Nat.shiftLeft_eq]
    exact ⟨hm, by positivity⟩

theorem quotient_eq (m : ℕ) (e : ℤ) :
    ((quotient m e).1 : ℚ) = m * 2 ^ e * (quotient m e).2 := by
  have hpow := pow_toNat (by norm_num : (2 : ℚ) ≠ 0) e
  unfold quotient
  split
  · have hzero : (-e).toNat = 0 := by omega
    rw [hzero, pow_zero, mul_one] at hpow
    rw [Nat.shiftLeft_eq]
    push_cast
    rw [hpow, mul_one]
  · have hzero : e.toNat = 0 := by omega
    rw [hzero, pow_zero] at hpow
    rw [Nat.shiftLeft_eq, one_mul]
    push_cast
    rw [mul_assoc, ← hpow, mul_one]

/-- The last place of the number when it is written with 53 bits, or as many as there are. -/
def lastPlace (m : ℕ) (e : ℤ) : ℤ := max (e - (52 - m.log2 : ℤ)) leastExponent

/-- The number in units of its last place. -/
def places (m : ℕ) (e : ℤ) : ℕ := m <<< (e - lastPlace m e).toNat

theorem lastPlace_le (hm : 0 < m) (h : Fits m e) : lastPlace m e ≤ e := by
  have hlog : m.log2 < 53 := (Nat.log2_lt hm.ne').mpr h.significand
  have hleast := h.exponent
  unfold lastPlace
  omega

theorem places_eq (hm : 0 < m) (h : Fits m e) :
    (places m e : ℚ) * 2 ^ lastPlace m e = m * 2 ^ e := by
  have hle := lastPlace_le hm h
  have hexponent : ((e - lastPlace m e).toNat : ℤ) + lastPlace m e = e := by omega
  rw [places, Nat.shiftLeft_eq]
  push_cast
  rw [← zpow_natCast, mul_assoc, ← zpow_add₀ (by norm_num), hexponent]

theorem places_lt (hm : 0 < m) (h : Fits m e) : places m e < 2 ^ 53 := by
  have hlog : m.log2 < 53 := (Nat.log2_lt hm.ne').mpr h.significand
  have hleast := h.exponent
  have hshift : (e - lastPlace m e).toNat ≤ 52 - m.log2 := by
    unfold lastPlace
    omega
  calc places m e = m * 2 ^ (e - lastPlace m e).toNat := Nat.shiftLeft_eq _ _
    _ < 2 ^ (m.log2 + 1) * 2 ^ (e - lastPlace m e).toNat :=
        Nat.mul_lt_mul_of_pos_right Nat.lt_log2_self (by positivity)
    _ ≤ 2 ^ (m.log2 + 1) * 2 ^ (52 - m.log2) :=
        Nat.mul_le_mul_left _ (Nat.pow_le_pow_right (by decide) hshift)
    _ = 2 ^ 53 := by
        rw [← pow_add]
        congr 1
        omega

theorem places_pos (hm : 0 < m) : 0 < places m e := by
  rw [places, Nat.shiftLeft_eq]
  positivity

theorem interval_eq (m : ℕ) (e : ℤ) :
    (interval m e).unit = lastPlace m e - 2 ∧ (interval m e).middle = 4 * places m e ∧
      (interval m e).high = 4 * places m e + 2 ∧
      ((interval m e).low = 4 * places m e - 2 ∨
        (interval m e).low = 4 * places m e - 1 ∧ places m e = 2 ^ 52) := by
  refine ⟨rfl, rfl, rfl, ?_⟩
  change (if places m e = 1 <<< 52 ∧ leastExponent < lastPlace m e then 4 * places m e - 1
    else 4 * places m e - 2) = _ ∨ (if places m e = 1 <<< 52 ∧ leastExponent < lastPlace m e
      then 4 * places m e - 1 else 4 * places m e - 2) = _ ∧ _
  split
  · next hdense => exact .inr ⟨rfl, hdense.1⟩
  · exact .inl rfl

end Place

/-- Some decimal of at most seventeen digits rounds to the number. -/
theorem digits_pos {m : ℕ} {e : ℤ} (hm : 0 < m) (h : Fits m e) : 0 < (digits m e).1 := by
  obtain ⟨hunit, hmiddle, hhigh, hlow⟩ := interval_eq m e
  have hplaces := places_lt hm h
  have hpositive := places_pos (e := e) hm
  have hlowPos : 0 < (interval m e).low := by omega
  have hlowLt : (interval m e).low < (interval m e).middle := by omega
  have hltHigh : (interval m e).middle < (interval m e).high := by omega
  refine Interval.pos_search hlowPos (by omega) fun hnone => ?_
  have hwidth := Interval.width_le_of_onGrid?_eq_none hlowLt hltHigh hnone
  obtain ⟨hnum, hden⟩ := quotient_pos (e := e) hm
  have hsize := floorLog10_le hnum (quotient m e).2
  rw [quotient_eq, mul_comm] at hsize
  have hden' : (0 : ℚ) < (quotient m e).2 := by exact_mod_cast hden
  have hten : (10 : ℚ) ^ floorLog10 (quotient m e).1 (quotient m e).2 ≤ m * 2 ^ e :=
    le_of_mul_le_mul_right hsize hden'
  have hvalue : ((interval m e).middle : ℚ) * 2 ^ (interval m e).unit = m * 2 ^ e := by
    rw [hunit, hmiddle, ← places_eq hm h, zpow_sub₀ (by norm_num)]
    push_cast
    ring
  rw [← hvalue] at hten
  rw [Nat.cast_ofNat, zpow_sub₀ (by norm_num), le_div_iff₀ (by norm_num)] at hwidth
  have htwo : (0 : ℚ) < 2 ^ (interval m e).unit := by positivity
  have hnarrow : (((interval m e).high : ℚ) - (interval m e).low) * 10 ^ 16 ≤
      (interval m e).middle := by
    refine le_of_mul_le_mul_right ?_ htwo
    calc (((interval m e).high : ℚ) - (interval m e).low) * 10 ^ 16 * 2 ^ (interval m e).unit
        = ((interval m e).high - (interval m e).low) * 2 ^ (interval m e).unit * 10 ^ (16 : ℤ) := by
          rw [mul_right_comm]
          rfl
      _ ≤ (interval m e).middle * 2 ^ (interval m e).unit := hwidth.trans hten
  have hwhole : ((interval m e).high - (interval m e).low) * 10 ^ 16 ≤ (interval m e).middle := by
    have hle : (interval m e).low ≤ (interval m e).high := by omega
    rw [← Nat.cast_le (α := ℚ)]
    push_cast [Nat.cast_sub hle]
    exact hnarrow
  rcases hlow with hlow | ⟨hlow, hdense⟩
  · omega
  · omega

end Receipt.Double
