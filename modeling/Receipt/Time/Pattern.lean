import Receipt.Time.Zone

/-!
# Time patterns

A pattern is text with directives: `%`, flags, a least width, a modifier and a conversion
character. Names are English. A directive that is not understood prints as it stands. Three
directives without flags, `%f`, `%z` and `%Z`, are filled in first; the others see a moment without
zone. The whole result is empty if it is longer than a limit that grows with the pattern.
-/
namespace Receipt.Time.Pattern

/-- What stands between `%` and the conversion character. -/
structure Flags where
  /-- The last of `_`, `-` and `0`. -/
  pad : Option Char := none
  upper : Bool := false
  swap : Bool := false
  width : Nat := 0
  modifier : Option Char := none
  deriving Repr

/-- What a conversion writes, before padding. -/
inductive Content where
  /-- A number of at least so many digits. -/
  | number (digits : Nat) (value : Nat) (blanks : Bool)
  /-- A name: as it is, and whether `#` makes it upper-case or lower-case. -/
  | name (text : List Char) (swapToLower : Bool)
  /-- A text whose case flags leave alone. -/
  | fixed (text : List Char)
  /-- A combination of other directives, made upper-case by `^`. -/
  | composed (text : List Char)
  /-- A number padded like a text. -/
  | count (value : Int)
  /-- The name of a zone that is not known: empty. -/
  | zone
  | nothing
  deriving Repr

def weekdayNames : List String :=
  ["Monday", "Tuesday", "Wednesday", "Thursday", "Friday", "Saturday", "Sunday"]

def monthNames : List String :=
  ["January", "February", "March", "April", "May", "June", "July", "August", "September",
    "October", "November", "December"]

/-- The name of a weekday, Monday being zero. -/
def weekdayName (n : Nat) : List Char := ((weekdayNames[n]?).getD "").toList

/-- The name of a month, January being one. -/
def monthName (n : Nat) : List Char := ((monthNames[n - 1]?).getD "").toList

def hour12 (c : Clock) : Nat := if c.hour % 12 = 0 then 12 else c.hour % 12

def halfOfDay (c : Clock) : String := if c.hour < 12 then "AM" else "PM"

/-- The year and number of the week that holds the day, where a week belongs to the year that holds
its Thursday. -/
def isoWeek (d : Date) : Nat × Nat :=
  let thursday : Int := (d.ordinal : Int) - d.weekday + 3
  let (year, rest) := yearAndDay (thursday.toNat - 1)
  (year, rest / 7 + 1)

def two (n : Nat) : String := padZeros 2 n

/-- Day and month with two digits, and the last two digits of the year. -/
def dateText (d : Date) : String := two d.month ++ "/" ++ two d.day ++ "/" ++ two (d.year % 100)

def timeText (c : Clock) : String := two c.hour ++ ":" ++ two c.minute ++ ":" ++ two c.second

/-- Weekday, month, day, time and year in the usual order. -/
def fullText (m : Moment) : String :=
  String.ofList ((weekdayName m.date.weekday).take 3) ++ " "
    ++ String.ofList ((monthName m.date.month).take 3) ++ " "
    ++ (if m.date.day < 10 then " " else "") ++ toString m.date.day ++ " " ++ timeText m.clock
    ++ " " ++ toString m.date.year

/-- Conversions that take the modifier `E`. -/
def takesE : List Char := "cCxXyYntpPrRTsu%Zz".toList

/-- Conversions that do not take the modifier `O`. -/
def refusesO : List Char := "aAcxXDFY".toList

def admits (modifier : Option Char) (conversion : Char) : Bool :=
  match modifier with
  | none => true
  | some 'E' => takesE.contains conversion
  | some _ => !refusesO.contains conversion

/-- What a conversion writes for a moment on the clocks of a zone, none if there is no such
conversion. -/
def content? (zone : Zone) (m : Moment) (conversion : Char) : Option Content :=
  let d := m.date
  let c := m.clock
  let sunday := (d.weekday + 1) % 7
  let yday := d.dayOfYear - 1
  match conversion with
  | '%' => some (.fixed ['%'])
  | 'n' => some (.fixed ['\n'])
  | 't' => some (.fixed ['\t'])
  | 'a' => some (.name ((weekdayName d.weekday).take 3) false)
  | 'A' => some (.name (weekdayName d.weekday) false)
  | 'b' | 'h' => some (.name ((monthName d.month).take 3) false)
  | 'B' => some (.name (monthName d.month) false)
  | 'p' => some (.name (halfOfDay c).toList true)
  | 'P' => some (.fixed ((halfOfDay c).toList.map Char.toLower))
  | 'c' => some (.composed (fullText m).toList)
  | 'x' | 'D' => some (.composed (dateText d).toList)
  | 'F' => some (.composed
      (toString d.year ++ "-" ++ two d.month ++ "-" ++ two d.day).toList)
  | 'X' | 'T' => some (.composed (timeText c).toList)
  | 'R' => some (.composed (two c.hour ++ ":" ++ two c.minute).toList)
  | 'r' => some (.composed
      (two (hour12 c) ++ ":" ++ two c.minute ++ ":" ++ two c.second ++ " " ++ halfOfDay c).toList)
  | 'C' => some (.number 1 (d.year / 100) false)
  | 'd' => some (.number 2 d.day false)
  | 'e' => some (.number 2 d.day true)
  | 'H' => some (.number 2 c.hour false)
  | 'I' => some (.number 2 (hour12 c) false)
  | 'k' => some (.number 2 c.hour true)
  | 'l' => some (.number 2 (hour12 c) true)
  | 'j' => some (.number 3 d.dayOfYear false)
  | 'M' => some (.number 2 c.minute false)
  | 'm' => some (.number 2 d.month false)
  | 'S' => some (.number 2 c.second false)
  | 's' => some (.count (zone.second (m.sinceEpoch / 1000000)))
  | 'u' => some (.number 1 (d.weekday + 1) false)
  | 'w' => some (.number 1 sunday false)
  | 'U' => some (.number 2 ((yday + 7 - sunday) / 7) false)
  | 'W' => some (.number 2 ((yday + 7 - d.weekday) / 7) false)
  | 'V' => some (.number 2 (isoWeek d).2 false)
  | 'g' => some (.number 2 ((isoWeek d).1 % 100) false)
  | 'G' => some (.number 1 (isoWeek d).1 false)
  | 'y' => some (.number 2 (d.year % 100) false)
  | 'Y' => some (.number 1 d.year false)
  | 'Z' => some .zone
  | 'z' => some .nothing
  | _ => none

/-- Fills a text in front to the width, with zeros if the flag `0` is set. -/
def widen (f : Flags) (text : List Char) : List Char :=
  List.replicate (f.width - text.length) (if f.pad = some '0' then '0' else ' ') ++ text

/-- A number: its digits are filled with zeros, or with blanks, or not at all. -/
def writeNumber (f : Flags) (digits value : Nat) (blanks : Bool) : List Char :=
  let ds := (toString value).toList
  let pad := if blanks && f.pad ≠ some '0' && f.pad ≠ some '-' then some '_' else f.pad
  let filler := if pad = some '_' then ' ' else '0'
  if pad = some '-' then widen f ds
  else List.replicate (max digits f.width - ds.length) filler ++ ds

def write (f : Flags) : Content → List Char
  | .number digits value blanks => writeNumber f digits value blanks
  | .name text swapToLower =>
    widen f
      (if f.swap && swapToLower then text.map Char.toLower
      else if f.upper || f.swap then text.map Char.toUpper else text)
  | .fixed text => widen f text
  | .composed text => widen f (if f.upper then text.map Char.toUpper else text)
  | .count value => widen f (toString value).toList
  | .zone => if f.pad = some '-' then [] else widen f []
  | .nothing => []

def readFlags (f : Flags) : List Char → Flags × List Char
  | '_' :: cs => readFlags { f with pad := some '_' } cs
  | '-' :: cs => readFlags { f with pad := some '-' } cs
  | '0' :: cs => readFlags { f with pad := some '0' } cs
  | '^' :: cs => readFlags { f with upper := true } cs
  | '#' :: cs => readFlags { f with swap := true } cs
  | cs => (f, cs)

/-- Reads a least width; an absent one is zero. -/
def readWidth (cs : List Char) : Nat × List Char :=
  ((cs.takeWhile Char.isDigit).foldl (fun n c => n * 10 + (c.toNat - 48)) 0,
    cs.dropWhile Char.isDigit)

def readModifier : List Char → Option Char × List Char
  | 'E' :: cs => (some 'E', cs)
  | 'O' :: cs => (some 'O', cs)
  | cs => (none, cs)

/-- A directive after its `%`: the flags and what they leave. -/
def readDirective (cs : List Char) : Flags × List Char :=
  let (f, cs) := readFlags {} cs
  let (width, cs) := readWidth cs
  let (modifier, cs) := readModifier cs
  ({ f with width, modifier }, cs)

theorem length_readFlags_le (f : Flags) (cs : List Char) :
    (readFlags f cs).2.length ≤ cs.length := by
  fun_induction readFlags f cs <;> simp_all <;> omega

theorem length_readDirective_le (cs : List Char) : (readDirective cs).2.length ≤ cs.length := by
  have hf := length_readFlags_le {} cs
  have hw : (readWidth (readFlags {} cs).2).2.length ≤ (readFlags {} cs).2.length :=
    (List.dropWhile_suffix _).length_le
  have hm (xs : List Char) : (readModifier xs).2.length ≤ xs.length := by
    unfold readModifier
    split <;> simp
  exact Nat.le_trans (hm _) (Nat.le_trans hw hf)

/-- Prints a directive that is not understood, padded like a text. -/
def writeUnknown (f : Flags) (conversion? : Option Char) (written : List Char) : List Char :=
  let shortMonth := conversion? = some 'b' || conversion? = some 'h'
  widen f (if f.upper || (f.swap && shortMonth) then written.map Char.toUpper else written)

/-- Prints a directive, which was written like this. -/
def writeDirective (zone : Zone) (m : Moment) (f : Flags) (conversion : Char)
    (written : List Char) : List Char :=
  match content? zone m conversion with
  | some content =>
    if admits f.modifier conversion then write f content else writeUnknown f conversion written
  | none => writeUnknown f conversion written

/-- Prints a pattern, none if some width goes beyond the limit. -/
def print? (limit : Nat) (zone : Zone) (m : Moment) : List Char → Option (List Char)
  | [] => some []
  | '%' :: cs =>
    let f := (readDirective cs).1
    match _h : (readDirective cs).2 with
    | [] => if limit ≤ f.width then none else some (writeUnknown f none ('%' :: cs))
    | conversion :: rest =>
      if limit ≤ f.width then none
      else
        (print? limit zone m rest).map
          (writeDirective zone m f conversion ('%' :: cs.take (cs.length - rest.length)) ++ ·)
  | c :: cs => (print? limit zone m cs).map (c :: ·)
termination_by cs => cs.length
decreasing_by
  · have := length_readDirective_le cs
    simp only [_h, List.length_cons] at this ⊢
    omega
  · simp

/-- A text as a pattern that prints it. -/
def quoted (s : String) : List Char := s.toList.flatMap fun c => if c = '%' then ['%', '%'] else [c]

/-- Fills in `%f`, `%z` and `%Z`, the latter with the name of the moment's offset; everything from a
NUL on is left out. -/
def fillZone (name : String) (m : Moment) : List Char → List Char
  | [] => []
  | '\x00' :: _ => []
  | ['%'] => ['%']
  | '%' :: '\x00' :: _ => ['%']
  | '%' :: 'f' :: cs => (padZeros 6 m.clock.microsecond).toList ++ fillZone name m cs
  | '%' :: 'z' :: cs =>
    (match m.offset with
      | none => []
      | some o => o.text.toList.filter (· ≠ ':')) ++ fillZone name m cs
  | '%' :: 'Z' :: cs => (if m.offset.isSome then quoted name else []) ++ fillZone name m cs
  | '%' :: c :: cs => '%' :: c :: fillZone name m cs
  | c :: cs => c :: fillZone name m cs

/-- The first of 1024, 2048, … that is not below 256 characters for each of the pattern. -/
def limit (length : Nat) : Nat := max 1024 (256 * length.nextPowerOfTwo)

/-- Prints a moment on the clocks of a zone. -/
def print (zone : Zone) (pattern : List Char) (m : Moment) : List Char :=
  let filled := fillZone (zone.name (m.instant / 1000000)) m pattern
  let bound := limit filled.length
  match print? bound zone m filled with
  | some text => if text.length < bound then text else []
  | none => []

end Receipt.Time.Pattern
