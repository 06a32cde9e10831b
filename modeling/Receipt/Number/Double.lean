/-!
# Binary64 numbers, exactly

A finite number is `± significand · 2 ^ exponent` with an odd significand (zero has significand
and exponent zero), so equal numbers of equal sign are equal as data and every operation is integer
arithmetic. `ofQuotient` rounds a quotient to the nearest number that fits, a tie to the even
significand.
-/
namespace Receipt

/-- A binary64 number. -/
inductive Double where
  | nan
  | infinite (negative : Bool)
  | finite (negative : Bool) (significand : Nat) (exponent : Int)
  deriving DecidableEq, Repr

namespace Double

def zero (negative : Bool) : Double := .finite negative 0 0

/-- Halves an even number until it is odd, and counts the halvings. -/
def stripTwos (n : Nat) : Nat × Nat :=
  if n ≠ 0 ∧ n % 2 = 0 then ((stripTwos (n / 2)).1, (stripTwos (n / 2)).2 + 1) else (n, 0)
termination_by n
decreasing_by all_goals omega

/-- The number `± n · 2 ^ e`, which has to fit already. -/
def make (negative : Bool) (n : Nat) (e : Int) : Double :=
  if n = 0 then zero negative
  else .finite negative (stripTwos n).1 (e + (stripTwos n).2)

/-- A quotient to the nearest whole number, a tie to the even one. -/
def roundHalfEven (num den : Nat) : Nat :=
  let q := num / den
  let twice := 2 * (num % den)
  if twice < den then q
  else if den < twice then q + 1
  else if q % 2 = 0 then q else q + 1

/-- The exponent of the greatest power of two not above a positive quotient. -/
def floorLog2 (num den : Nat) : Int :=
  let k : Int := (num.log2 : Int) - (den.log2 : Int)
  let fits := if 0 ≤ k then den <<< k.toNat ≤ num else den ≤ num <<< (-k).toNat
  if fits then k else k - 1

/-- The least exponent of a significand's last bit. -/
def leastExponent : Int := -1074

/-- The quotient of `num` and `den · 2 ^ e` to the nearest whole number. -/
def roundAt (num den : Nat) (e : Int) : Nat :=
  if 0 ≤ e then roundHalfEven num (den <<< e.toNat)
  else roundHalfEven (num <<< (-e).toNat) den

/-- The binary64 number nearest to `± num / den`. -/
def ofQuotient (negative : Bool) (num den : Nat) : Double :=
  if num = 0 then zero negative
  else
    let e := max (floorLog2 num den - 52) leastExponent
    let m := roundAt num den e
    if 1024 ≤ e + (m.log2 : Int) then .infinite negative else make negative m e

/-- The quotient that a finite number is: numerator without sign, and denominator. -/
def quotient (significand : Nat) (exponent : Int) : Nat × Nat :=
  if 0 ≤ exponent then (significand <<< exponent.toNat, 1)
  else (significand, 1 <<< (-exponent).toNat)

/-- The whole part, cut toward zero; none without one. -/
def truncate? : Double → Option Int
  | .finite negative m e =>
    let n : Int := ((quotient m e).1 / (quotient m e).2 : Nat)
    some (if negative then -n else n)
  | _ => none

/-- The greatest whole number not above a finite number. -/
def floor? : Double → Option Int
  | .finite negative m e =>
    let num : Int := (quotient m e).1
    some ((if negative then -num else num) / ((quotient m e).2 : Int))
  | _ => none

/-- The whole number that a number is; none when it has a fraction. -/
def whole? : Double → Option Int
  | .finite negative m e =>
    if (quotient m e).1 % (quotient m e).2 = 0 then (Double.finite negative m e).truncate? else none
  | _ => none

def isZero : Double → Bool
  | .finite _ 0 _ => true
  | _ => false

/-- Whether the number is below one; a NaN is not. -/
def belowOne : Double → Bool
  | .nan => false
  | .infinite negative => negative
  | .finite negative m e => negative || decide ((quotient m e).1 < (quotient m e).2)

/-- A number divided by a positive whole number, rounded once. -/
def divNat (d : Double) (n : Nat) : Double :=
  match d with
  | .finite negative m e => ofQuotient negative (quotient m e).1 ((quotient m e).2 * n)
  | d => d

/-- A number multiplied by a whole number, rounded once. -/
def mulNat (d : Double) (n : Nat) : Double :=
  match d with
  | .finite negative m e => ofQuotient negative ((quotient m e).1 * n) (quotient m e).2
  | d => d

/-- Adds a whole number to one that is not negative, and rounds once. -/
def addNat (d : Double) (n : Nat) : Double :=
  match d with
  | .finite _ m e => ofQuotient false ((quotient m e).1 + n * (quotient m e).2) (quotient m e).2
  | d => d

/-- The number of the same size with the given sign. -/
def withSign (negative : Bool) : Double → Double
  | .nan => .nan
  | .infinite _ => .infinite negative
  | .finite _ m e => .finite negative m e

/-- What a finite number has behind the point, with the number's sign. -/
def fraction : Double → Double
  | .finite negative m e =>
    let (num, den) := quotient m e
    ofQuotient negative (num % den) den
  | d => d

/-- The nearest whole number, a tie to the even one. -/
def nearest? : Double → Option Int
  | .finite negative m e =>
    let n : Int := roundHalfEven (quotient m e).1 (quotient m e).2
    some (if negative then -n else n)
  | _ => none

end Double
end Receipt
