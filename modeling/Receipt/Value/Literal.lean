import Receipt.Number.Reader
import Receipt.Number.Shortest
import Receipt.Text.Quoted
import Receipt.Value.Basic

/-!
# Values written as literals

`literal` writes a value so that its kind shows: texts in quotes, `None`, `True` and `False`,
brackets around lists. `plain` is the same except that a text, a date or a moment stands for
itself. Neither is ever shown of a value that holds a whole number with too many digits: `fits` says
that there is none, and `word` gives the plain text of such values only.
-/
namespace Receipt

def joined (separator : String) : List String → String
  | [] => ""
  | [s] => s
  | s :: t :: more => s ++ separator ++ joined separator (t :: more)

namespace Time

def Date.literal (d : Date) : String :=
  "datetime.date(" ++ joined ", " [toString d.year, toString d.month, toString d.day] ++ ")"

/-- A distance of time, given in microseconds: days, seconds and microseconds, of which only the
days are negative. -/
def distanceLiteral (distance : Int) : String :=
  let days := distance / dayLength
  let rest := (distance % dayLength).toNat
  let parts :=
    (if days = 0 then [] else ["days=" ++ toString days])
      ++ (if rest / second = 0 then [] else ["seconds=" ++ toString (rest / second)])
      ++ (if rest % second = 0 then [] else ["microseconds=" ++ toString (rest % second)])
  "datetime.timedelta(" ++ (if parts.isEmpty then "0" else joined ", " parts) ++ ")"

def Offset.literal (o : Offset) : String :=
  if o.east = 0 then "datetime.timezone.utc"
  else "datetime.timezone(" ++ distanceLiteral o.east ++ ")"

/-- Seconds and microseconds appear only if they are not zero. -/
def Moment.literal (m : Moment) : String :=
  let c := m.clock
  let parts := [m.date.year, m.date.month, m.date.day, c.hour, c.minute]
    ++ (if c.second = 0 ∧ c.microsecond = 0 then [] else [c.second])
    ++ (if c.microsecond = 0 then [] else [c.microsecond])
  "datetime.datetime(" ++ joined ", " (parts.map fun n => toString n)
    ++ (match m.offset with
      | none => ""
      | some o => ", tzinfo=" ++ o.literal) ++ ")"

end Time

def boolLiteral (b : Bool) : String := if b then "True" else "False"

def Key.literal : Key → String
  | .text s => Text.Quoted.ofString s
  | .null => "None"
  | .bool b => boolLiteral b
  | .int n => toString n
  | .double d => d.text
  | .date d => d.literal
  | .moment m => m.literal

/-- A key as a word of its own. -/
def Key.plain : Key → String
  | .text s => s
  | .date d => d.text
  | .moment m => m.text
  | key => key.literal

/-- Why a value cannot be written. -/
inductive Unwritable where
  /-- A whole number in it has too many digits. -/
  | tooLong
  /-- JSON does not know a value or a key in it. -/
  | notJson
  deriving DecidableEq, Repr

def Unwritable.message : Unwritable → String
  | .tooLong => Number.unwritableMessage
  | .notJson => ""

def Key.fits : Key → Bool
  | .int n => Number.fits n
  | _ => true

/-- A key as a word of its own, if it can be written. -/
def Key.word (key : Key) : Except Unwritable String :=
  if key.fits then .ok key.plain else .error .tooLong

namespace Value

mutual
/-- The value with its kind showing. -/
def literal : Value → String
  | .null => "None"
  | .missing => "MISSING"
  | .bool b => boolLiteral b
  | .int n => toString n
  | .double d => d.text
  | .text s => Text.Quoted.ofString s
  | .unresolved s => Text.Quoted.ofString s
  | .date d => d.literal
  | .moment m => m.literal
  | .list items => "[" ++ joined ", " (literals items) ++ "]"
  | .tuple items =>
    match literals items with
    | [only] => "(" ++ only ++ ",)"
    | parts => "(" ++ joined ", " parts ++ ")"
  | .map members => "\x7b" ++ joined ", " (memberLiterals members) ++ "\x7d"

def literals : List Value → List String
  | [] => []
  | v :: vs => v.literal :: literals vs

def memberLiterals : List (Key × Value) → List String
  | [] => []
  | (key, v) :: rest => (key.literal ++ ": " ++ v.literal) :: memberLiterals rest
end

/-- The value as a word of its own. -/
def plain : Value → String
  | .text s | .unresolved s => s
  | .date d => d.text
  | .moment m => m.text
  | v => v.literal

mutual
/-- Whether every whole number in the value, the keys of maps included, can be written. -/
def fits : Value → Bool
  | .int n => Number.fits n
  | .list items => allFit items
  | .tuple items => allFit items
  | .map members => membersFit members
  | _ => true

def allFit : List Value → Bool
  | [] => true
  | v :: vs => v.fits && allFit vs

def membersFit : List (Key × Value) → Bool
  | [] => true
  | (key, v) :: rest => key.fits && v.fits && membersFit rest
end

/-- The value as a word of its own, if it can be written. -/
def word (v : Value) : Except Unwritable String :=
  if v.fits then .ok v.plain else .error .tooLong

end Value
end Receipt
