import Receipt.Number.Reader
import Receipt.Text.Split
import Receipt.Time.Lexeme
import Receipt.Time.Moment

/-!
# Reading free date text

Text such as `Jan 15 2024 2:30 PM` or `20240115T143025Z` is read word by word into a draft: the
numbers of the day in the order in which they stand, with the year and the month marked where that
is certain, the time of day, a weekday and a zone. Which number is the day, the month and the year
is settled at the end; what the text does not say is taken from 1 January 1970, and years of two
digits stay close to a present year. A text with a word that fits nowhere is refused.
-/
namespace Receipt.Time.Reader

open Text

/-- Words between the parts of a date. -/
def fillers : List String :=
  [" ", ".", ",", ";", "-", "/", "'", "at", "on", "and", "ad", "m", "t", "of", "st", "nd", "rd",
    "th"]

def weekdayWords : List (String × Nat) :=
  [("mon", 0), ("monday", 0), ("tue", 1), ("tuesday", 1), ("wed", 2), ("wednesday", 2),
    ("thu", 3), ("thursday", 3), ("fri", 4), ("friday", 4), ("sat", 5), ("saturday", 5),
    ("sun", 6), ("sunday", 6)]

def monthWords : List (String × Nat) :=
  [("jan", 1), ("january", 1), ("feb", 2), ("february", 2), ("mar", 3), ("march", 3),
    ("apr", 4), ("april", 4), ("may", 5), ("jun", 6), ("june", 6), ("jul", 7), ("july", 7),
    ("aug", 8), ("august", 8), ("sep", 9), ("sept", 9), ("september", 9), ("oct", 10),
    ("october", 10), ("nov", 11), ("november", 11), ("dec", 12), ("december", 12)]

def unitWords : List (String × Nat) :=
  [("h", 0), ("hour", 0), ("hours", 0), ("m", 1), ("minute", 1), ("minutes", 1), ("s", 2),
    ("second", 2), ("seconds", 2)]

/-- Names of the halves of the day; the afternoon is true. -/
def halfWords : List (String × Bool) := [("am", false), ("a", false), ("pm", true), ("p", true)]

def lower (s : String) : String := String.ofList (s.toList.map Char.toLower)

def isFiller (s : String) : Bool := fillers.contains (lower s)
def weekday? (s : String) : Option Nat := weekdayWords.lookup (lower s)
def month? (s : String) : Option Nat := monthWords.lookup (lower s)
def unit? (s : String) : Option Nat := unitWords.lookup (lower s)
def half? (s : String) : Option Bool := halfWords.lookup (lower s)
def isUtc (s : String) : Bool := ["utc", "gmt", "z"].contains (lower s)

/-- Whether a text has digits only, of any kind. -/
def allDigits (cs : List Char) : Bool := !cs.isEmpty && cs.all isDigitSign

def natural? (cs : List Char) : Option Nat := (Number.readInt cs).toOption.bind Int.toNat?

/-- What a number of the day is known to be. -/
inductive Part where
  | year | month
  deriving DecidableEq, Repr

/-- The numbers of the day, in order, and the places of those known to be year and month. -/
structure Numbers where
  values : List Nat := []
  yearAt : Option Nat := none
  monthAt : Option Nat := none
  /-- A year was written with its century. -/
  century : Bool := false
  deriving Repr

namespace Numbers

def add (n : Numbers) (value : Nat) (part : Option Part) : Option Numbers :=
  let place := n.values.length
  let n := { n with values := n.values ++ [value] }
  match part with
  | none => some n
  | some .month => if n.monthAt.isSome then none else some { n with monthAt := some place }
  | some .year => if n.yearAt.isSome then none else some { n with yearAt := some place }

/-- Adds a number that is written out; one of more than two digits is a year. -/
def addText (n : Numbers) (cs : List Char) (part : Option Part) : Option Numbers := do
  let value ← natural? cs
  if allDigits cs && 2 < cs.length then
    if part = some .month then none
    else Numbers.add { n with century := true } value (some .year)
  else n.add value part

/-- Adds a decimal number, of which the whole part counts; one above a hundred is a year. -/
def addDecimal (n : Numbers) (num den : Nat) : Option Numbers :=
  if 100 * den < num then Numbers.add { n with century := true } (num / den) (some .year)
  else n.add (num / den) none

/-- Whether a decimal number can be a day of the month, as far as the month is known. -/
def admitsDay (n : Numbers) (num den : Nat) : Option Bool :=
  let upTo (last : Nat) : Bool := den ≤ num && num ≤ last * den
  match n.monthAt with
  | none => some (upTo 31)
  | some m =>
    let month := (n.values[m]?).getD 0
    let year := (n.yearAt.bind fun y => n.values[y]?).getD 2000
    if month = 0 ∨ 12 < month then none else some (upTo (monthLength year month))

/-- Year, month and day, as far as there are any. -/
abbrev Ymd := Option Nat × Option Nat × Option Nat

/-- With all places but one known, the last is known as well; it is the day's. -/
def byPlace (n : Numbers) : Ymd :=
  let y := n.yearAt.bind fun i => n.values[i]?
  let m := n.monthAt.bind fun i => n.values[i]?
  let others := (List.range n.values.length).filter fun i =>
    n.yearAt ≠ some i && n.monthAt ≠ some i
  (y, m, others.head?.bind fun i => n.values[i]?)

/-- Which number is the year, the month and the day. Without other signs the order is month, day,
year; a number that can be no month, or no day, changes it. -/
def resolve (n : Numbers) : Option Ymd :=
  let known := n.yearAt.toList.length + n.monthAt.toList.length
  if (n.values.length = known ∧ 0 < known) ∨ (n.values.length = 3 ∧ known = 2) then
    some n.byPlace
  else
    match n.values, n.monthAt with
    | [], _ => some (none, none, none)
    | [a], none => some (if 31 < a then (some a, none, none) else (none, none, some a))
    | [a], some _ => some (none, some a, none)
    | [a, b], some 0 =>
      some (if 31 < b then (some b, some a, none) else (none, some a, some b))
    | [a, b], some _ =>
      some (if 31 < a then (some a, some b, none) else (none, some b, some a))
    | [a, b], none =>
      some (if 31 < a then (some a, some b, none)
        else if 31 < b then (some b, some a, none)
        else (none, some a, some b))
    | [a, b, c], some 0 =>
      some (if 31 < b then (some b, some a, some c) else (some c, some a, some b))
    | [a, b, c], some 1 =>
      some (if 31 < a then (some a, some b, some c) else (some c, some b, some a))
    | [a, b, c], some _ =>
      some (if 31 < b then (some b, some c, some a) else (some a, some c, some b))
    | [a, b, c], none =>
      some (if 31 < a ∨ n.yearAt = some 0 then (some a, some b, some c)
        else if 12 < a then (some c, some b, some a)
        else (some c, some a, some b))
    | _, _ => none

end Numbers

/-- What has been read so far. -/
structure Draft where
  numbers : Numbers := {}
  weekday : Option Nat := none
  hour : Option Nat := none
  minute : Option Nat := none
  second : Option Nat := none
  microsecond : Option Nat := none
  zoneName : Option String := none
  /-- Seconds east of UTC. -/
  zoneOffset : Option Int := none
  half : Option Bool := none
  deriving Repr

/-- The hour on a clock of twenty-four. -/
def inHalf (hour : Nat) (afternoon : Bool) : Nat :=
  if hour < 12 ∧ afternoon then hour + 12 else if hour = 12 ∧ ¬afternoon then 0 else hour

/-- Seconds with an optional fraction, of which six places count. -/
def readSeconds? (cs : List Char) : Option (Nat × Nat) :=
  match Text.splitOn '.' cs with
  | [whole] => do return (← natural? whole, 0)
  | [whole, places] => do
    return (← natural? whole, ← natural? ((places ++ List.replicate 6 '0').take 6))
  | _ => none

def decimal? (word : String) : Option (Nat × Nat) :=
  match Number.readDecimal? word.toList with
  | some d => some (d.digits, Nat.pow 10 (-d.exponent).toNat)
  | none => none

/-- A whole number with twenty-eight digits kept and the others zero. -/
def significant (n : Nat) : Nat :=
  let unit := Nat.pow 10 ((Nat.toDigits 10 n).length - 28)
  Double.roundHalfEven n unit * unit

/-- The whole sixtieths in the fraction of a decimal number, if it has one. The fraction and its
sixtieths are each rounded to twenty-eight digits, so a third has twenty of them. -/
def sixtieths? (num den : Nat) : Option Nat :=
  if num % den = 0 then none
  else some (significant (60 * significant (num % den)) / den)

/-- Minutes, and seconds if there is a fraction. -/
def minuteParts (num den : Nat) : Nat × Option Nat := (num / den, sixtieths? num den)

namespace Draft

def setUnit (d : Draft) (word : String) (num den : Nat) : Nat → Option Draft
  | 0 =>
    let d := { d with hour := some (num / den) }
    some { d with minute := (sixtieths? num den).or d.minute }
  | 1 =>
    let (minute, second) := minuteParts num den
    some { d with minute := some minute, second := second }
  | 2 => do
    let (second, microsecond) ← readSeconds? word.toList
    return { d with second := some second, microsecond := some microsecond }
  | _ => some d

/-- The unit that a number belongs to, and how many words up to the unit's own follow the number: a
unit after the number, or the next smaller one after a unit before it. -/
def unitOf? (before after : List String) : Option (Nat × Nat) :=
  match after with
  | w :: more =>
    match unit? w with
    | some u => some (u, 1)
    | none =>
      match (if w = " " then more.head?.bind unit? else none) with
      | some u => some (u, 2)
      | none => (before.head?.bind unit?).map fun u => (u + 1, 0)
  | [] =>
    match before with
    | b :: more =>
      match unit? b with
      | some u => some (u + 1, 0)
      | none => if b = " " then (more.head?.bind unit?).map fun u => (u + 1, 0) else none
    | [] => none

def addText (d : Draft) (cs : List Char) (part : Option Part) : Option Draft := do
  return { d with numbers := ← d.numbers.addText cs part }

def addMonth (d : Draft) (month : Nat) : Option Draft := do
  return { d with numbers := ← d.numbers.add month (some .month) }

def addDecimal (d : Draft) (num den : Nat) : Option Draft := do
  return { d with numbers := ← d.numbers.addDecimal num den }

def addMonthOrText (d : Draft) (word : String) : Option Draft :=
  match month? word with
  | some m => d.addMonth m
  | none => d.addText word.toList none

/-- A time after the hour and a colon: the words used behind the number. -/
def addTime (d : Draft) (hour : Nat) (after : List String) : Option (Draft × Nat) :=
  match after with
  | _ :: minutes :: more => do
    let (num, den) ← decimal? minutes
    let (minute, second) := minuteParts num den
    let d := { d with hour := some hour, minute := some minute, second := second }
    match more with
    | ":" :: seconds :: _ =>
      let (second, microsecond) ← readSeconds? seconds.toList
      return ({ d with second := some second, microsecond := some microsecond }, 4)
    | _ => return (d, 2)
  | _ => none

/-- A date after its first number and a separator: the words used behind the number. -/
def addSeparated (d : Draft) (word : String) (after : List String) : Option (Draft × Nat) := do
  let d ← d.addText word.toList none
  match after with
  | separator :: second :: more =>
    if isFiller second then return (d, 1)
    else
      let d ←
        if allDigits second.toList then d.addText second.toList none
        else (month? second).bind d.addMonth
      match more with
      | s :: rest =>
        if s = separator then
          let d ← d.addMonthOrText (← rest.head?)
          return (d, 4)
        else return (d, 2)
      | [] => return (d, 2)
  | _ => return (d, 1)

/-- A number standing alone: a day number, or an hour with the half of the day behind a blank. -/
def addAlone (d : Draft) (num den : Nat) (after : List String) : Option (Draft × Nat) :=
  match (after.drop 1).head?.bind half? with
  | some afternoon => some ({ d with hour := some (inHalf (num / den) afternoon) }, 2)
  | none => do return (← d.addDecimal num den, 1)

/-- Hours and minutes in one word of two or four digits. -/
def addHourMinute (d : Draft) (cs : List Char) : Option (Draft × Nat) := do
  let hour ← natural? (cs.take 2)
  if cs.length = 4 then
    return ({ d with hour := some hour, minute := some (← natural? (cs.drop 2)) }, 0)
  else return ({ d with hour := some hour }, 0)

/-- Six digits: a date if there is none yet, and otherwise a time with an optional fraction. -/
def addSix (d : Draft) (cs : List Char) : Option (Draft × Nat) := do
  if d.numbers.values.isEmpty && !cs.contains '.' then
    let d ← d.addText (cs.take 2) none
    let d ← d.addText ((cs.drop 2).take 2) none
    let d ← d.addText (cs.drop 4) none
    return (d, 0)
  else
    let hour ← natural? (cs.take 2)
    let minute ← natural? ((cs.drop 2).take 2)
    let (second, microsecond) ← readSeconds? (cs.drop 4)
    return ({ d with
      hour := some hour, minute := some minute, second := some second,
      microsecond := some microsecond }, 0)

/-- Eight, twelve or fourteen digits: a date from the year on, and the time behind it. -/
def addLong (d : Draft) (cs : List Char) : Option (Draft × Nat) := do
  let d ← d.addText (cs.take 4) (some .year)
  let d ← d.addText ((cs.drop 4).take 2) none
  let d ← d.addText ((cs.drop 6).take 2) none
  if cs.length = 8 then return (d, 0)
  else
    let d := { d with
      hour := some (← natural? ((cs.drop 8).take 2))
      minute := some (← natural? ((cs.drop 10).take 2)) }
    if cs.length = 12 then return (d, 0)
    else return ({ d with second := some (← natural? (cs.drop 12)) }, 0)

/-- A number with nothing around it that explains it can only be a day. -/
def addDay (d : Draft) (num den : Nat) : Option (Draft × Nat) := do
  if ← d.numbers.admitsDay num den then return (← d.addDecimal num den, 0) else none

/-- Takes a number in, and says how many words behind it belong to it. `before` holds the words in
front of it, the nearest first. -/
def addNumber (d : Draft) (before : List String) (word : String) (after : List String) :
    Option (Draft × Nat) := do
  let (num, den) ← decimal? word
  let cs := word.toList
  let next := after.head?
  if d.numbers.values.length = 3 && (cs.length = 2 || cs.length = 4) && d.hour.isNone
      && next ≠ some ":" && (next.bind unit?).isNone then
    d.addHourMinute cs
  else if cs.length = 6 || (6 < cs.length && cs.idxOf '.' = 6) then d.addSix cs
  else if cs.length = 8 || cs.length = 12 || cs.length = 14 then d.addLong cs
  else
    match unitOf? before after with
    | some (unit, used) => do return (← d.setUnit word num den unit, used)
    | none =>
      if next = some ":" && 2 ≤ after.length then d.addTime (num / den) after
      else if next = some "-" || next = some "/" || next = some "." then
        d.addSeparated word after
      else if (next.map isFiller).getD true then d.addAlone num den after
      else
        match next.bind half? with
        | some afternoon =>
          if num < 24 * den then
            return ({ d with hour := some (inHalf (num / den) afternoon) }, 1)
          else d.addDay num den
        | none => d.addDay num den

/-- The year of a two-digit number that is nearest to the present one. -/
def fullYear (presentYear year : Nat) (century : Bool) : Nat :=
  if year < 100 ∧ ¬century then
    let y := year + presentYear / 100 * 100
    if presentYear + 50 ≤ y then y - 100
    else if y + 50 < presentYear then y + 100 else y
  else year

/-- Takes a month name in, with the day and the year that may follow it. -/
def addMonthName (presentYear : Nat) (d : Draft) (month : Nat) (after : List String) :
    Option (Draft × Nat) := do
  let d ← d.addMonth month
  match after with
  | separator :: more =>
    if separator = "-" ∨ separator = "/" then
      let d ← d.addText (← more.head?).toList none
      match more.drop 1 with
      | s :: rest =>
        if s = separator then return (← d.addText (← rest.head?).toList none, 4)
        else return (d, 2)
      | [] => return (d, 2)
    else
      match after with
      | " " :: word :: " " :: year :: _ =>
        if lower word = "of" then
          if allDigits year.toList then
            let full := fullYear presentYear (← natural? year.toList) false
            return (← d.addText (toString full).toList (some .year), 4)
          else return (d, 4)
        else return (d, 0)
      | _ => return (d, 0)
  | [] => return (d, 0)

/-- Whether a word can name the zone of the time read before it. -/
def admitsZone (d : Draft) (offset : Option Int) (word : String) : Bool :=
  d.hour.isSome && d.zoneName.isNone && offset.isNone && word.length ≤ 5
    && (word.toList.all (fun c => 'A' ≤ c && c ≤ 'Z') || ["UTC", "GMT", "Z", "z"].contains word)

/-- Reads a numbered zone after its sign, and a name for it in parentheses. -/
def addOffset (d : Draft) (east : Bool) (after : List String) : Option (Draft × Nat) := do
  let digits := (← after.head?).toList
  let colon := (after.drop 1).head? = some ":"
  let (hours, minutes, used) ←
    if digits.length = 4 then do
      pure (← natural? (digits.take 2), ← natural? (digits.drop 2), 1)
    else if colon then do
      pure (← natural? digits, ← natural? (← (after.drop 2).head?).toList, 3)
    else if digits.length ≤ 2 then do pure (← natural? digits, 0, 1)
    else none
  let seconds : Int := hours * 3600 + minutes * 60
  let d' := { d with zoneOffset := some (if east then seconds else -seconds) }
  match after.drop used with
  | filler :: "(" :: name :: ")" :: _ =>
    if isFiller filler && 3 ≤ name.length && d.admitsZone none name then
      return ({ d' with zoneName := some name }, used + 4)
    else return (d', used)
  | _ => return (d', used)

/-- Takes a zone name in. `UTC+3` means a clock three hours ahead of UTC and `BRST+3` one three
hours behind it, so a sign that follows a name is turned round. -/
def addZone (d : Draft) (word : String) (after : List String) : Draft × List String :=
  let d := { d with zoneName := some word, zoneOffset := if word = "z" then some 0 else none }
  match after with
  | sign :: more =>
    if sign = "+" ∨ sign = "-" then
      ({ d with zoneName := if isUtc word then none else some word, zoneOffset := none },
        (if sign = "+" then "-" else "+") :: more)
    else (d, after)
  | [] => (d, after)

/-- Takes one word in: the draft after it, the words behind it, and how many of them were used. -/
def step (presentYear : Nat) (d : Draft) (before : List String) (word : String)
    (after : List String) :
    Option (Draft × List String × Nat) :=
  if (Number.readDouble? word.toList).isSome then do
    let (d, used) ← d.addNumber before word after
    return (d, after, used)
  else if let some w := weekday? word then some ({ d with weekday := some w }, after, 0)
  else if let some m := month? word then do
    let (d, used) ← d.addMonthName presentYear m after
    return (d, after, used)
  else if let some afternoon := half? word then do
    let hour ← d.hour
    if hour ≤ 12 then
      return ({ d with hour := some (inHalf hour afternoon), half := some afternoon }, after, 0)
    else none
  else if d.admitsZone d.zoneOffset word then
    let (d, after) := d.addZone word after
    some (d, after, 0)
  else if d.hour.isSome && (word = "+" || word = "-") then do
    let (d, used) ← d.addOffset (word = "+") after
    return (d, after, used)
  else if isFiller word then some (d, after, 0)
  else none

/-- Reads all words; the fuel is their number. -/
def readAll (presentYear : Nat) (d : Draft) (before : List String) :
    (fuel : Nat) → List String → Option Draft
  | _, [] => some d
  | 0, _ => none
  | fuel + 1, word :: after => do
    let (d, after, used) ← d.step presentYear before word after
    d.readAll presentYear ((after.take used).reverse ++ word :: before) fuel (after.drop used)

end Draft

/-- Whether a difference of times can count so many seconds: up to 999999999 days back, and up to
the end of as many days ahead. -/
def isDifference (seconds : Int) : Bool :=
  -86399999913600 ≤ seconds && seconds ≤ 86399999999999

def Draft.finish (presentYear : Nat) (d : Draft) : Option Reading := do
  let (year, month, day) ← d.numbers.resolve
  let year := year.map fun y => fullYear presentYear y d.numbers.century
  let utc := (d.zoneOffset = some 0 && d.zoneName.isNone)
    || d.zoneName = some "Z" || d.zoneName = some "z"
  let zoneName := if utc then some "UTC" else d.zoneName
  let offset :=
    if utc || (zoneName.map isUtc).getD false then some 0 else d.zoneOffset
  if year.isNone && month.isNone && day.isNone && d.weekday.isNone && d.hour.isNone
      && d.minute.isNone && d.second.isNone && d.microsecond.isNone && zoneName.isNone
      && offset.isNone && d.half.isNone then none
  let date ← (Date.make? (year.getD 1970) (month.getD 1) (day.getD 1)).toOption
  let clock ← (Clock.make? (d.hour.getD 0) (d.minute.getD 0) (d.second.getD 0)
    (d.microsecond.getD 0)).toOption
  let date ← match d.weekday, day with
    | some w, none => Date.ofOrdinal? (date.ordinal + (7 - date.weekday + w) % 7 : Nat)
    | _, _ => some date
  match offset with
  | some n => if isDifference n then return ⟨date, clock, offset⟩ else none
  | none => return ⟨date, clock, none⟩

def read? (presentYear : Nat) (cs : List Char) : Option Reading :=
  let words := Lexeme.ofText cs
  (Draft.readAll presentYear {} [] words.length words).bind (Draft.finish presentYear)

end Receipt.Time.Reader
