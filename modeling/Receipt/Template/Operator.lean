import Receipt.Host
import Receipt.Number.Reader
import Receipt.Text.Split
import Receipt.Time.Epoch
import Receipt.Time.Pattern
import Receipt.Value.Printed

/-!
# Operators

An operator changes the value of a placeholder before it is printed. Its argument is the text after
the colon: parts with commas between, each without blanks around it and without one pair of quotes.

`padding` fills a text up to a width and `fitted` gives it exactly a width; both count characters.
A width that memory cannot hold is refused, and so is a value that cannot be printed.
-/
namespace Receipt.Template

open Text

def unquote (cs : List Char) : List Char :=
  match cs with
  | first :: rest =>
    if (first = '\'' ∨ first = '"') ∧ rest.getLast? = some first then rest.dropLast else cs
  | [] => cs

def argumentParts : Option (List Char) → List (List Char)
  | none => []
  | some arg => (splitOn ',' arg).map fun part => unquote (trim part)

/-- Why an operator, and with it the whole expansion, fails. -/
inductive Error where
  /-- The filler would be longer than a text can be. -/
  | tooWide
  /-- The filler would not fit into memory. -/
  | outOfMemory
  /-- The time pattern is no text. -/
  | patternNotText
  /-- The moment has no counterpart on local clocks. -/
  | outsideCalendar
  /-- The offset is a day or more. -/
  | offsetTooLarge
  /-- The width is written with too many digits. -/
  | widthTooLong (digits : Nat)
  /-- The value cannot be printed. -/
  | unwritable (e : Unwritable)
  deriving DecidableEq, Repr

def Error.message : Error → String
  | .offsetTooLarge =>
    "offset must be a timedelta strictly between -timedelta(hours=24) and timedelta(hours=24)."
  | .widthTooLong digits => Number.tooLongMessage digits
  | .unwritable e => e.message
  | _ => ""

/-- The width at the front of a text, if it has one. -/
def readWidth (cs : List Char) : Except Error (Option Int) :=
  match Number.leadingInt cs with
  | .ok n => .ok (some n)
  | .error .malformed => .ok none
  | .error (.tooLong digits) => .error (.widthTooLong digits)

/-- The width at the front of the first part, if it has one. -/
def argumentWidth (parts : List (List Char)) : Except Error (Option Int) :=
  match parts with
  | [] => .ok none
  | part :: _ => readWidth part

/-- The text of a value, if it can be printed. -/
def textOf (v : Value) : Except Error String := v.print.mapError .unwritable

/-- No text has this many characters. -/
def lengthBound : Nat := 1 <<< 63

section host

variable [Host]

/-- A number of characters that can be made: neither too long for a text nor for memory. -/
def checkLength (n : Nat) : Except Error Unit :=
  if lengthBound ≤ n then .error .tooWide
  else if Host.memory ≤ n then .error .outOfMemory else .ok ()

/-- So many characters, taken from the filling again and again. -/
def fillerOf (fill : List Char) (count : Nat) : List Char :=
  (List.range count).filterMap fun k => fill[k % fill.length]?

def padding (left : Bool) (width : Int) (fill text : List Char) : Except Error (List Char) :=
  let needed := (width - text.length).toNat
  if needed = 0 ∨ fill = [] then .ok text
  else do
    checkLength ((needed / fill.length + 1) * fill.length)
    return if left then fillerOf fill needed ++ text else text ++ fillerOf fill needed

inductive Align where
  | left | center | right
  deriving DecidableEq, Repr

/-- The alignment that a part names; an unknown name is the left. -/
def Align.ofPart (part : Option (List Char)) : Align :=
  if part = some "right".toList then .right
  else if part = some "center".toList then .center
  else .left

def blanks (n : Nat) : List Char := List.replicate n ' '

/-- A text in a column of exactly the given width. The two sides of a centred text are made one
after the other. -/
def fitted (align : Align) (width : Int) (text : List Char) : Except Error (List Char) :=
  let w := width.toNat
  let pad := w - text.length
  if w < text.length then .ok (text.take w)
  else match align with
    | .left => do
      checkLength pad
      return text ++ blanks pad
    | .right => do
      checkLength pad
      return blanks pad ++ text
    | .center => do
      checkLength (pad / 2)
      if Host.memory ≤ pad then throw .outOfMemory
      return blanks (pad / 2) ++ text ++ blanks (pad - pad / 2)

/-- The moment on local clocks. -/
def onLocalClock (m : Time.Moment) : Except Error Time.Moment :=
  match m.local? Host.zone with
  | some shown => .ok shown
  | none => .error .outsideCalendar

/-- The moment that date text names, if it can be read; a text without any digit is no date. -/
def momentOfText (cs : List Char) : Except Error (Option Time.Moment) :=
  if !cs.any isDecimalDigit then .ok none
  else match Host.readDate cs with
    | none => .ok none
    | some r =>
      match r.offset with
      | none => .ok (some ⟨r.date, r.clock, none⟩)
      | some seconds =>
        match Time.Offset.make? (seconds * 1000000) with
        | none => .error .offsetTooLarge
        | some offset => (onLocalClock ⟨r.date, r.clock, some offset⟩).map some

/-- The moment that a value stands for: numbers count milliseconds since the epoch. -/
def momentOf : Value → Except Error (Option Time.Moment)
  | .moment m => (onLocalClock m).map some
  | .int n => .ok (Time.Moment.ofMilliseconds? Host.zone n)
  | .double d => .ok (Time.Moment.ofSeconds? Host.zone (d.divNat 1000))
  | .text s => momentOfText s.toList
  | _ => .ok none

end host

inductive Operator where
  /-- Gives an empty value a text of its own. -/
  | default
  /-- Fills up to a width, on the left or on the right. -/
  | pad (left : Bool)
  /-- Cuts or fills to a width. -/
  | fit
  /-- Prints a moment by a pattern, which should be a text. -/
  | format (pattern : Value)
  /-- Any other rule, with a name for its kind. -/
  | custom (kind : String) (rule : Value → Option String → Except Error Value)

namespace Operator

/-- The value that stands for an empty one. -/
def standIn : Option (List Char) → Value
  | some cs => .text (String.ofList (unquote (trim cs)))
  | none => .null

def applyDefault (v : Value) (arg : Option (List Char)) : Except Error Value :=
  match v with
  | .null | .missing | .unresolved _ => .ok (standIn arg)
  | v => do
    let text ← textOf v
    return if text = "" then standIn arg else v

/-- The filling that an argument names; an empty or absent one is a blank. -/
def fillOf (part : Option (List Char)) : List Char :=
  match part with
  | none | some [] => [' ']
  | some cs => cs

variable [Host]

def applyPad (left : Bool) (v : Value) (arg : Option (List Char)) : Except Error Value :=
  let parts := argumentParts arg
  match argumentWidth parts, v with
  | .error e, _ => .error e
  | .ok none, v => .ok v
  | .ok (some _), .null => .ok .null
  | .ok (some width), v => do
    let text ← textOf v
    let cs ← padding left width (fillOf parts[1]?) text.toList
    return .text (String.ofList cs)

def applyFit (v : Value) (arg : Option (List Char)) : Except Error Value :=
  let parts := argumentParts arg
  match argumentWidth parts, v with
  | .error e, _ => .error e
  | .ok none, v => .ok v
  | .ok (some _), .null => .ok .null
  | .ok (some width), v => do
    let text ← textOf v
    if width ≤ 0 then return .text ""
    let cs ← fitted (Align.ofPart parts[1]?) width text.toList
    return .text (String.ofList cs)

/-- Leaves alone what is no moment, which has to be such that it can be told, and every value if the
argument is not `datetime`. -/
def applyFormat (pattern v : Value) (arg : Option (List Char)) : Except Error Value :=
  if arg.map trim ≠ some "datetime".toList ∨ !v.truthy then .ok v
  else do
    match ← momentOf v with
    | none => if v.fits then return v else throw (.unwritable .tooLong)
    | some m =>
      match pattern.text? with
      | none => throw .patternNotText
      | some p => return .text (String.ofList (Time.Pattern.print Host.zone p.toList m))

def apply (op : Operator) (v : Value) (arg : Option String) : Except Error Value :=
  match op with
  | .default => applyDefault v (arg.map String.toList)
  | .pad left => applyPad left v (arg.map String.toList)
  | .fit => applyFit v (arg.map String.toList)
  | .format pattern => applyFormat pattern v (arg.map String.toList)
  | .custom _ rule => rule v arg

/-- Prints in upper case; letters above ASCII stay as they are. -/
def upper : Operator :=
  .custom "upper" fun v _ => do
    let text ← textOf v
    return .text (String.ofList (text.toList.map Char.toUpper))

end Operator
end Receipt.Template
