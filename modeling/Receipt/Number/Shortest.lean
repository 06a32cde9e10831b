import Receipt.Number.Double

/-!
# The shortest decimal that reads back

Of all decimals that round to a given number, `digits` takes one of least length, of those the
nearest, and of two equally near the one with the even last digit. The search walks the grids of
one, two, up to seventeen digits: a grid point in the interval of reals that round to the number is
found at one of the number's two neighbours on that grid.
-/
namespace Receipt.Double

def decimalLength (n : Nat) : Nat := (Nat.toDigits 10 n).length

/-- The exponent of the greatest power of ten not above a positive quotient. -/
def floorLog10 (num den : Nat) : Int :=
  let k : Int := (decimalLength num : Int) - (decimalLength den : Int)
  let fits := if 0 ≤ k then den * Nat.pow 10 k.toNat ≤ num else den ≤ num * Nat.pow 10 (-k).toNat
  if fits then k else k - 1

/-- The reals that round to a number, in quarters of the unit of its last place: the number, how
far the interval reaches down and up, and whether its ends belong to it. -/
structure Interval where
  unit : Int
  middle : Nat
  low : Nat
  high : Nat
  closed : Bool

/-- Below a power of two the numbers lie twice as dense, so there the interval reaches down half as
far. -/
def interval (significand : Nat) (exponent : Int) : Interval :=
  let unit := max (exponent - (52 - significand.log2 : Int)) leastExponent
  let m := significand <<< (exponent - unit).toNat
  let dense := m = 1 <<< 52 ∧ leastExponent < unit
  ⟨unit - 2, 4 * m, if dense then 4 * m - 1 else 4 * m - 2, 4 * m + 2, m % 2 = 0⟩

/-- Compares `n · 10 ^ k` with `q · 2 ^ u`. -/
def compareDecimal (n : Nat) (k : Int) (q : Nat) (u : Int) : Ordering :=
  compare ((n * Nat.pow 10 k.toNat) <<< (-u).toNat) (q <<< u.toNat * Nat.pow 10 (-k).toNat)

/-- Whether `n · 10 ^ k` rounds to the number. -/
def Interval.holds (i : Interval) (n : Nat) (k : Int) : Bool :=
  match compareDecimal n k i.low i.unit, compareDecimal n k i.high i.unit with
  | .gt, .lt => true
  | .eq, _ | _, .eq => i.closed
  | _, _ => false

/-- The better of the two neighbours on the grid of multiples of `10 ^ k`, if one rounds to the
number. -/
def Interval.onGrid? (i : Interval) (k : Int) : Option Nat :=
  let below := i.middle <<< i.unit.toNat * Nat.pow 10 (-k).toNat
    / (Nat.pow 10 k.toNat <<< (-i.unit).toNat)
  match i.holds below k, i.holds (below + 1) k with
  | false, false => none
  | true, false => some below
  | false, true => some (below + 1)
  | true, true =>
    match compareDecimal (2 * below + 1) k (2 * i.middle) i.unit with
    | .gt => some below
    | .lt => some (below + 1)
    | .eq => some (if below % 2 = 0 then below else below + 1)

/-- Tries grids of one more digit each. -/
def Interval.search (i : Interval) (k : Int) : Nat → Nat × Int
  | 0 => ((i.onGrid? k).getD 0, k)
  | more + 1 =>
    match i.onGrid? k with
    | some n => (n, k)
    | none => i.search (k - 1) more

/-- Shortest decimal of a positive number: its digits as a whole number, and the power of ten of
the last one. -/
def digits (significand : Nat) (exponent : Int) : Nat × Int :=
  (interval significand exponent).search
    (floorLog10 (quotient significand exponent).1 (quotient significand exponent).2) 16

/-- Exponents have a sign and at least two digits. -/
def exponentText (e : Int) : String :=
  let n := toString e.natAbs
  (if e < 0 then "e-" else "e+") ++ (if n.length < 2 then "0" ++ n else n)

/-- Digits are set with a point for exponents from -4 to 15, and with an exponent beyond. -/
def layout (n : Nat) (k : Int) : String :=
  let ds := toString n
  let point : Int := ds.length + k
  let zeros (count : Int) := String.ofList (List.replicate count.toNat '0')
  if -4 < point ∧ point ≤ 16 then
    if point ≤ 0 then "0." ++ zeros (-point) ++ ds
    else if (ds.length : Int) ≤ point then ds ++ zeros (point - ds.length) ++ ".0"
    else String.ofList (ds.toList.take point.toNat) ++ "."
      ++ String.ofList (ds.toList.drop point.toNat)
  else
    let tail := ds.toList.drop 1
    String.ofList (ds.toList.take 1)
      ++ (if tail.isEmpty then "" else "." ++ String.ofList tail) ++ exponentText (point - 1)

/-- Cuts zeros off the end of a positive whole number. -/
def stripTens (n : Nat) (k : Int) : Nat × Int :=
  if n ≠ 0 ∧ n % 10 = 0 then stripTens (n / 10) (k + 1) else (n, k)
termination_by n
decreasing_by omega

/-- The shortest text that reads back as the number. -/
def text : Double → String
  | .nan => "nan"
  | .infinite negative => if negative then "-inf" else "inf"
  | .finite negative m e =>
    (if negative then "-" else "") ++
      if m = 0 then "0.0"
      else
        let (n, k) := digits m e
        let (n, k) := stripTens n k
        layout n k

end Receipt.Double
