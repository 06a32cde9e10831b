import Receipt.Number.Double
import Receipt.Text.Blank
import Receipt.Text.Digit

/-!
# Reading numbers

Numbers are read from text with white space around them cut off, decimal digits of every script,
and single low lines between digits. White space here leaves out the four ASCII separators, which
are blanks elsewhere. A whole number may have up to `digitLimit` digits, leading zeros included; one
with more is not written either.
-/
namespace Receipt.Number

open Text

/-- The digits that go on a run of digits, each with at most one low line before it. -/
def moreDigits : List Char → List Nat × List Char
  | [] => ([], [])
  | [c] =>
    match digitValue? c with
    | some d => ([d], [])
    | none => ([], [c])
  | c :: next :: cs =>
    match digitValue? c with
    | some d => (d :: (moreDigits (next :: cs)).1, (moreDigits (next :: cs)).2)
    | none =>
      match c, digitValue? next with
      | '_', some d => (d :: (moreDigits cs).1, (moreDigits cs).2)
      | _, _ => ([], c :: next :: cs)

/-- A run of digits at the front, and the rest of the text. -/
def digitRun : List Char → List Nat × List Char
  | '_' :: cs => ([], '_' :: cs)
  | cs => moreDigits cs

def ofDigits (ds : List Nat) : Nat := ds.foldl (fun n d => n * 10 + d) 0

/-- A sign at the front: whether it is a minus, and the rest. -/
def signed : List Char → Bool × List Char
  | '-' :: cs => (true, cs)
  | '+' :: cs => (false, cs)
  | cs => (false, cs)

def applySign (negative : Bool) (n : Nat) : Int := if negative then -(n : Int) else n

/-- How many digits a whole number may be written with. -/
def digitLimit : Nat := 4300

/-- Whether a whole number has few enough digits to be written. -/
def fits (n : Int) : Bool := (Nat.toDigits 10 n.natAbs).length ≤ digitLimit

inductive IntError where
  | malformed
  | tooLong (digits : Nat)
  deriving DecidableEq, Repr

/-- The message about a number with so many digits. -/
def tooLongMessage (digits : Nat) : String :=
  "Exceeds the limit (" ++ toString digitLimit
    ++ " digits) for integer string conversion: value has " ++ toString digits
    ++ " digits; use sys.set_int_max_str_digits() to increase the limit"

/-- The message about a number that is not written. -/
def unwritableMessage : String :=
  "Exceeds the limit (" ++ toString digitLimit
    ++ " digits) for integer string conversion; use sys.set_int_max_str_digits() to increase the limit"

/-- The number that digits write, if they are not too many. -/
def ofLimitedDigits (negative : Bool) (ds : List Nat) : Except IntError Int :=
  if digitLimit < ds.length then .error (.tooLong ds.length)
  else .ok (applySign negative (ofDigits ds))

/-- White space that may stand around a number. -/
def isMargin (c : Char) : Bool := isBlank c && !(28 ≤ c.toNat && c.toNat ≤ 31)

def withoutMargins (cs : List Char) : List Char :=
  ((cs.dropWhile isMargin).reverse.dropWhile isMargin).reverse

/-- Reads a whole number. A low line that is out of place is noticed before too many digits are, and
anything else behind the digits after them. -/
def readInt (cs : List Char) : Except IntError Int :=
  let (negative, body) := signed (withoutMargins cs)
  match digitRun body with
  | ([], _) | (_, '_' :: _) => .error .malformed
  | (ds, []) => ofLimitedDigits negative ds
  | (ds, _) =>
    match ofLimitedDigits negative ds with
    | .ok _ => .error .malformed
    | .error e => .error e

/-- Reads a whole number at the front of a text, after blanks; what follows it does not matter. -/
def leadingInt (cs : List Char) : Except IntError Int :=
  let (negative, body) := signed (trimLeft cs)
  match body.takeWhile isDecimalDigit with
  | [] => .error .malformed
  | ds => ofLimitedDigits negative (ds.filterMap digitValue?)

/-- A decimal number: `± digits · 10 ^ exponent`. -/
structure Decimal where
  negative : Bool
  digits : Nat
  exponent : Int
  deriving DecidableEq, Repr

/-- Beyond this many places a number is infinite or zero whatever its digits are. -/
def Decimal.toDouble (d : Decimal) : Double :=
  let size : Int := (Nat.toDigits 10 d.digits).length + d.exponent
  if d.digits = 0 then .zero d.negative
  else if 320 < size then .infinite d.negative
  else if size < -340 then .zero d.negative
  else .ofQuotient d.negative (d.digits * Nat.pow 10 d.exponent.toNat)
      (Nat.pow 10 (-d.exponent).toNat)

/-- The exponent at the front of a text; an absent one is zero. -/
def readExponent? (cs : List Char) : Option (Int × List Char) :=
  match cs with
  | c :: rest =>
    if c = 'e' ∨ c = 'E' then
      let (negative, body) := signed rest
      match digitRun body with
      | ([], _) => none
      | (ds, rest) => some (applySign negative (ofDigits ds), rest)
    else some (0, cs)
  | [] => some (0, [])

/-- A decimal without blanks around it: a sign, digits with a point among or beside them, and an
exponent. -/
def readDecimal? (cs : List Char) : Option Decimal :=
  let (negative, body) := signed cs
  let (whole, rest) := digitRun body
  let (places, rest) :=
    match rest with
    | '.' :: rest => digitRun rest
    | rest => ([], rest)
  if whole.isEmpty && places.isEmpty then none
  else
    match readExponent? rest with
    | some (e, []) => some ⟨negative, ofDigits (whole ++ places), e - places.length⟩
    | _ => none

/-- The names of numbers that are not finite, in lower case and without sign. -/
def named? (name : List Char) (negative : Bool) : Option Double :=
  if name = "inf".toList ∨ name = "infinity".toList then some (.infinite negative)
  else if name = "nan".toList then some .nan
  else none

def readDouble? (cs : List Char) : Option Double :=
  let body := withoutMargins cs
  let (negative, name) := signed body
  match named? (name.map Char.toLower) negative with
  | some d => some d
  | none => (readDecimal? body).map Decimal.toDouble

end Receipt.Number
