import Receipt.Number.Reader
import Receipt.Text.Hex
import Receipt.Text.Split
import Receipt.Time.Moment
import Receipt.Value.Literal

/-!
# Plain scalars of YAML 1.1

A scalar without quotes is read by its looks: as a truth value, a number, nothing, a date, a
moment, or else a text. Numbers may have low lines among their digits, and digits of base sixty
with colons between.
-/
namespace Receipt.Yaml

/-- Why a scalar that looks like a moment or a number is none. -/
inductive ScalarError where
  | range (e : Time.RangeError)
  /-- The zone lies a day or more away, given in microseconds. -/
  | offset (east : Int)
  /-- The base of a number is given, and no digit. -/
  | noDigits (base : Nat)
  | tooLong (digits : Nat)
  deriving DecidableEq, Repr

def ScalarError.message : ScalarError → String
  | .range e => e.message
  | .offset east =>
    "offset must be a timedelta strictly between -timedelta(hours=24) and timedelta(hours=24), not "
      ++ Time.distanceLiteral east ++ "."
  | .noDigits base => "invalid literal for int() with base " ++ toString base ++ ": ''"
  | .tooLong digits => Number.tooLongMessage digits

namespace Scalar

/-- A number of exactly so many ASCII digits. -/
def fixedNumber? (width : Nat) (cs : List Char) : Option Nat :=
  if cs.length = width && cs.all Char.isDigit then
    some (cs.foldl (fun n c => n * 10 + (c.toNat - 48)) 0)
  else none

/-- Digits behind a point, cut or filled to six places. -/
def microsecondsOf (digits : List Char) : Option Nat :=
  if digits.isEmpty then none
  else fixedNumber? 6 ((digits ++ List.replicate 6 '0').take 6)

def bool? (s : String) : Option Bool :=
  if ["yes", "Yes", "YES", "true", "True", "TRUE", "on", "On", "ON"].contains s then some true
  else if ["no", "No", "NO", "false", "False", "FALSE", "off", "Off", "OFF"].contains s then
    some false
  else none

def isNull (s : String) : Bool := ["", "~", "null", "Null", "NULL"].contains s

def isDigitOrLine (c : Char) : Bool := c.isDigit || c = '_'

def withoutLines (cs : List Char) : List Char := cs.filter (· ≠ '_')

def inBase (base : Nat) (cs : List Char) : Nat :=
  (withoutLines cs).foldl (fun n c => n * base + (Text.Hex.value? c).getD 0) 0

/-- A number that does not start with zero, low lines included. -/
def isDecimal (cs : List Char) : Bool :=
  match cs with
  | c :: rest => c.isDigit && c ≠ '0' && rest.all isDigitOrLine
  | [] => false

/-- A digit of base sixty. -/
def isSixtieth (cs : List Char) : Bool :=
  match cs with
  | [c] => c.isDigit
  | [c, d] => '0' ≤ c && c ≤ '5' && d.isDigit
  | _ => false

def ofSixtieths (parts : List (List Char)) : Nat :=
  parts.foldl (fun n part => n * 60 + inBase 10 part) 0

/-- A whole number without its sign. -/
def natural? (cs : List Char) : Option Nat :=
  match cs with
  | ['0'] => some 0
  | '0' :: 'b' :: bits =>
    if withoutLines bits ≠ [] && bits.all fun c => c = '0' || c = '1' || c = '_' then
      some (inBase 2 bits)
    else none
  | '0' :: 'x' :: digits =>
    if withoutLines digits ≠ [] && digits.all fun c => (Text.Hex.value? c).isSome || c = '_' then
      some (inBase 16 digits)
    else none
  | '0' :: digits =>
    if digits.all fun c => ('0' ≤ c && c ≤ '7') || c = '_' then some (inBase 8 digits) else none
  | cs =>
    match Text.splitOn ':' cs with
    | [whole] => if isDecimal whole then some (inBase 10 whole) else none
    | whole :: parts =>
      if isDecimal whole && parts.all isSixtieth then some (ofSixtieths (whole :: parts)) else none
    | [] => none

def int? (cs : List Char) : Option Int :=
  let (negative, body) := Number.signed cs
  (natural? body).map (Number.applySign negative)

/-- A decimal exponent with its letter and its sign, or nothing. -/
def isExponent (cs : List Char) : Bool :=
  match cs with
  | [] => true
  | e :: sign :: digits =>
    (e = 'e' || e = 'E') && (sign = '+' || sign = '-') && digits ≠ [] && digits.all Char.isDigit
  | _ => false

/-- Whether a text starts with a digit and goes on with digits and low lines. -/
def isDigits (cs : List Char) : Bool :=
  match cs with
  | c :: rest => c.isDigit && rest.all isDigitOrLine
  | [] => false

/-- Adds digits of base sixty, the least first, and rounds every sum. -/
def addSixtieths (base : Nat) (d : Double) : List (List Char) → Double
  | [] => d
  | part :: more => addSixtieths (base * 60) (d.addNat (inBase 10 part * base)) more

/-- A number in base sixty, whose least digit comes first and has places behind its point. -/
def sixtieths? (parts : List (List Char)) (places : List Char) : Option Double :=
  match parts with
  | [] => none
  | part :: more =>
    (Number.readDouble? (withoutLines (part ++ '.' :: places))).map fun d => addSixtieths 60 d more

def double? (cs : List Char) : Option Double :=
  let (negative, body) := Number.signed cs
  match Text.cutAt '.' body with
  | (_, none) => none
  | (whole, some tail) =>
    let places := tail.takeWhile isDigitOrLine
    let rest := tail.drop places.length
    if whole = [] && ["inf", "Inf", "INF"].contains (String.ofList tail) then
      some (.infinite negative)
    else if body = cs && whole = [] && ["nan", "NaN", "NAN"].contains (String.ofList tail) then
      some .nan
    else if isDigits whole && isExponent rest
        || body = cs && whole = [] && isDigits places && isExponent rest then
      Number.readDouble? (withoutLines cs)
    else match Text.splitOn ':' whole with
      | first :: part :: parts =>
        if isDigits first && (part :: parts).all isSixtieth && rest = [] then
          (sixtieths? (first :: part :: parts).reverse places).map (Double.withSign negative)
        else none
      | _ => none

def shortNumber? (cs : List Char) : Option (Nat × List Char) :=
  match (cs.take 2).takeWhile Char.isDigit with
  | [] => none
  | ds => some (inBase 10 ds, cs.drop ds.length)

def twoDigits? (cs : List Char) : Option (Nat × List Char) :=
  (fixedNumber? 2 (cs.take 2)).map fun n => (n, cs.drop 2)

def after? (c : Char) (cs : List Char) : Option (List Char) :=
  if cs.head? = some c then some cs.tail else none

/-- The numbers of a moment: year, month, day, hour, minute, second, the digits behind the point,
and how many minutes its zone lies east, if it has one. -/
structure Stamp where
  day : Nat × Nat × Nat
  time : Nat × Nat × Nat
  fraction : List Char
  zone : Option Int

def isGap (c : Char) : Bool := c = ' ' || c = '\t'

/-- The zone at the end of a moment, after any gap. -/
def zone? (cs : List Char) : Option (Option Int) :=
  match cs.dropWhile isGap with
  | [] => if cs = [] then some none else none
  | ['Z'] => some (some 0)
  | sign :: rest =>
    if sign = '+' || sign = '-' then do
      let (hours, rest) ← shortNumber? rest
      let minutes ← match rest with
        | [] => some 0
        | ':' :: rest =>
          match twoDigits? rest with
          | some (m, []) => some m
          | _ => none
        | _ => none
      return some (Number.applySign (sign = '-') (hours * 60 + minutes))
    else none

def stamp? (cs : List Char) : Option Stamp := do
  let year ← fixedNumber? 4 (cs.take 4)
  let (month, cs) ← shortNumber? (← after? '-' (cs.drop 4))
  let (day, cs) ← shortNumber? (← after? '-' cs)
  let cs ← match cs with
    | 'T' :: cs | 't' :: cs => some cs
    | cs => if (cs.head?.map isGap).getD false then some (cs.dropWhile isGap) else none
  let (hour, cs) ← shortNumber? cs
  let (minute, cs) ← twoDigits? (← after? ':' cs)
  let (second, cs) ← twoDigits? (← after? ':' cs)
  let (fraction, cs) := match cs with
    | '.' :: cs => (cs.takeWhile Char.isDigit, cs.dropWhile Char.isDigit)
    | cs => ([], cs)
  let zone ← zone? cs
  return ⟨(year, month, day), (hour, minute, second), fraction, zone⟩

def Stamp.moment (s : Stamp) : Except ScalarError Time.Moment := do
  let offset ← match s.zone with
    | none => pure none
    | some minutes =>
      let east := minutes * 60 * Time.second
      match Time.Offset.make? east with
      | some offset => pure (some offset)
      | none => throw (.offset east)
  let date ← (Time.Date.make? s.day.1 s.day.2.1 s.day.2.2).mapError .range
  let clock ← (Time.Clock.make? s.time.1 s.time.2.1 s.time.2.2
    ((microsecondsOf s.fraction).getD 0)).mapError .range
  return ⟨date, clock, offset⟩

def date? (cs : List Char) : Option (Nat × Nat × Nat) :=
  match Text.splitOn '-' cs with
  | [y, m, d] => do
    return (← fixedNumber? 4 y, ← fixedNumber? 2 m, ← fixedNumber? 2 d)
  | _ => none

/-- The base that a number names if low lines stand in the place of all its digits. -/
def emptyBase? (cs : List Char) : Option Nat :=
  match (Number.signed cs).2 with
  | '0' :: letter :: line :: lines =>
    if (line :: lines).any (· ≠ '_') then none
    else if letter = 'b' then some 2
    else if letter = 'x' then some 16 else none
  | _ => none

/-- The value of a scalar that looks like no number and no truth value. -/
def other (cs : List Char) : Except ScalarError Value :=
  let s := String.ofList cs
  match emptyBase? cs, date? cs, stamp? cs with
  | some base, _, _ => .error (.noDigits base)
  | none, some (y, m, d), _ => ((Time.Date.make? y m d).mapError .range).map .date
  | none, none, some stamp => stamp.moment.map .moment
  | none, none, none => .ok (if isNull s then .null else .text s)

/-- The count of a whole number's digits, if they are too many; only those of base ten and the first
of base sixty have a limit. -/
def excess? (cs : List Char) : Option Nat :=
  match Text.splitOn ':' (withoutLines (Number.signed cs).2) with
  | ('0' :: _) :: _ => none
  | digits :: _ => if Number.digitLimit < digits.length then some digits.length else none
  | [] => none

def value (cs : List Char) : Except ScalarError Value :=
  let s := String.ofList cs
  match bool? s, double? cs, int? cs with
  | some b, _, _ => .ok (.bool b)
  | none, some d, _ => .ok (.double d)
  | none, none, some n => (excess? cs).elim (.ok (.int n)) fun digits => .error (.tooLong digits)
  | none, none, none => other cs

end Scalar
end Receipt.Yaml
