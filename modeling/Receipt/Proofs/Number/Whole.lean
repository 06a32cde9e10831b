import Mathlib.Algebra.Group.Nat.Defs
import Receipt.Number.Double

/-!
# Whole numbers in binary64

A whole number below `2 ^ 53` is a binary64 number, and a quotient that equals it is rounded to it,
whatever is divided: `isWhole_ofQuotient`. What such a number is cut to is the whole number again,
with nothing behind the point.
-/
namespace Receipt.Double

/-- A finite number of a whole size. -/
def IsWhole (d : Double) (negative : Bool) (size : Nat) : Prop :=
  ∃ m e den, d = .finite negative m e ∧ 0 < den ∧ quotient m e = (size * den, den)

namespace IsWhole
variable {d : Double} {negative : Bool} {size : Nat}

theorem truncate?_eq (h : d.IsWhole negative size) :
    d.truncate? = some (if negative then -(size : Int) else size) := by
  obtain ⟨m, e, den, rfl, hden, hquotient⟩ := h
  rw [truncate?, hquotient, Nat.mul_div_cancel size hden]

theorem fraction_eq (h : d.IsWhole negative size) : d.fraction = zero negative := by
  obtain ⟨m, e, den, rfl, -, hquotient⟩ := h
  rw [fraction, hquotient]
  dsimp only
  rw [Nat.mul_mod_left, ofQuotient, if_pos rfl]

end IsWhole

theorem zero_mulNat (negative : Bool) (n : Nat) : (zero negative).mulNat n = zero negative := by
  have hzero : (quotient 0 0).1 * n = 0 := Nat.zero_mul n
  rw [zero, mulNat, hzero, ofQuotient, if_pos rfl, zero]

theorem nearest?_zero (negative : Bool) : (zero negative).nearest? = some 0 := by
  cases negative <;> rfl

theorem roundHalfEven_mul {den : Nat} (h : 0 < den) (n : Nat) : roundHalfEven (n * den) den = n := by
  simp only [roundHalfEven, Nat.mul_mod_left, Nat.mul_div_cancel n h, Nat.mul_zero, if_pos h]

theorem floorLog2_mul {n den : Nat} (hn : 0 < n) (hden : 0 < den) :
    floorLog2 (n * den) den = n.log2 := by
  have hprod : n * den ≠ 0 := Nat.ne_of_gt (Nat.mul_pos hn hden)
  have hlow : n.log2 + den.log2 ≤ (n * den).log2 := by
    rw [Nat.le_log2 hprod, Nat.pow_add]
    exact Nat.mul_le_mul (Nat.log2_self_le (Nat.ne_of_gt hn)) (Nat.log2_self_le (Nat.ne_of_gt hden))
  have hhigh : (n * den).log2 < (n.log2 + 1) + (den.log2 + 1) := by
    rw [Nat.log2_lt hprod, Nat.pow_add]
    exact Nat.mul_lt_mul_of_lt_of_lt Nat.lt_log2_self Nat.lt_log2_self
  -- The difference of the two logarithms is the one that is looked for or one more.
  obtain ⟨k, hk⟩ : ∃ k : Nat, (n * den).log2 = k + den.log2 := ⟨_, (Nat.sub_add_cancel (by omega)).symm⟩
  have hdifference : ((n * den).log2 : Int) - den.log2 = k := by omega
  have hfits : den <<< k ≤ n * den ↔ k ≤ n.log2 := by
    rw [Nat.shiftLeft_eq, Nat.mul_comm, Nat.mul_le_mul_right_iff hden, Nat.le_log2 (Nat.ne_of_gt hn)]
  simp only [floorLog2, hdifference, Int.natCast_nonneg, if_true, Int.toNat_natCast, hfits]
  split <;> omega

theorem stripTwos_eq (n : Nat) : (stripTwos n).1 * 2 ^ (stripTwos n).2 = n := by
  fun_induction stripTwos n with
  | case1 n heven ih =>
      rw [Nat.pow_succ, ← Nat.mul_assoc, ih]
      omega
  | case2 n hodd => exact Nat.mul_one n

theorem isWhole_make (negative : Bool) {n : Nat} (hn : 0 < n) (places : Nat) :
    (make negative (n * 2 ^ places) (-places : Int)).IsWhole negative n := by
  have hne : n * 2 ^ places ≠ 0 := Nat.ne_of_gt (Nat.mul_pos hn (Nat.two_pow_pos places))
  have hstrip := stripTwos_eq (n * 2 ^ places)
  rw [make, if_neg hne]
  generalize (stripTwos (n * 2 ^ places)).1 = odd at hstrip
  generalize (stripTwos (n * 2 ^ places)).2 = twos at hstrip
  rcases Nat.le_total places twos with hle | hle
  · obtain ⟨more, rfl⟩ := Nat.exists_eq_add_of_le hle
    rw [Nat.add_comm, Nat.pow_add, ← Nat.mul_assoc] at hstrip
    have hodd := Nat.mul_right_cancel (Nat.two_pow_pos places) hstrip
    have hexponent : (-places : Int) + ((places + more : Nat) : Int) = more := by omega
    refine ⟨_, _, 1, rfl, Nat.one_pos, ?_⟩
    rw [hexponent, quotient, if_pos (Int.natCast_nonneg more), Int.toNat_natCast, Nat.shiftLeft_eq,
      hodd, Nat.mul_one]
  · obtain ⟨more, rfl⟩ := Nat.exists_eq_add_of_le hle
    rw [Nat.add_comm twos, Nat.pow_add, ← Nat.mul_assoc] at hstrip
    have hodd := Nat.mul_right_cancel (Nat.two_pow_pos twos) hstrip
    refine ⟨_, _, 2 ^ more, rfl, Nat.two_pow_pos more, ?_⟩
    have hexponent : (-((twos + more : Nat) : Int)) + (twos : Int) = -more := by omega
    rw [hexponent, quotient, Int.neg_neg, Int.toNat_natCast, Nat.one_shiftLeft, hodd]
    split
    · obtain rfl : more = 0 := by omega
      rfl
    · rfl

/-- A quotient that is a whole number of at most 53 bits is rounded to this number. -/
theorem isWhole_ofQuotient (negative : Bool) {n den : Nat} (hn : 0 < n) (hlt : n < 2 ^ 53)
    (hden : 0 < den) : (ofQuotient negative (n * den) den).IsWhole negative n := by
  have hlog : n.log2 < 53 := (Nat.log2_lt (Nat.ne_of_gt hn)).2 hlt
  obtain ⟨places, hplaces⟩ : ∃ places, n.log2 + places = 52 := ⟨52 - n.log2, by omega⟩
  have hexponent : max ((n.log2 : Int) - 52) leastExponent = -places := by
    unfold leastExponent
    omega
  have hround : roundAt (n * den) den (-places) = n * 2 ^ places := by
    rw [roundAt]
    split
    · obtain rfl : places = 0 := by omega
      exact (roundHalfEven_mul hden n).trans (Nat.mul_one n).symm
    · rw [Int.neg_neg, Int.toNat_natCast, Nat.shiftLeft_eq, Nat.mul_right_comm,
        roundHalfEven_mul hden]
  have hsize : (n * 2 ^ places).log2 = 52 := by
    rw [Nat.log2_eq_iff (Nat.ne_of_gt (Nat.mul_pos hn (Nat.two_pow_pos places))), ← hplaces]
    constructor
    · rw [Nat.pow_add]
      exact Nat.mul_le_mul_right _ (Nat.log2_self_le (Nat.ne_of_gt hn))
    · rw [Nat.add_right_comm, Nat.pow_add]
      exact Nat.mul_lt_mul_of_pos_right Nat.lt_log2_self (Nat.two_pow_pos places)
  rw [ofQuotient, if_neg (Nat.ne_of_gt (Nat.mul_pos hn hden))]
  simp only [floorLog2_mul hn hden, hexponent, hround, hsize]
  rw [if_neg (by omega)]
  exact isWhole_make negative hn places

end Receipt.Double
