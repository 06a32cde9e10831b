import Receipt.Value.Literal

/-!
# Writing JSON

Members keep their order. A style fixes the separators, the indentation and whether characters
above ASCII are escaped. Numbers that JSON does not know are written `NaN`, `Infinity` and
`-Infinity`, and values that it does not know as the text of `Value.plain`.

`fault?` finds what keeps a value from being written: a whole number with too many digits, a key
that JSON does not know or, if values are to be JSON too, a value that it does not know. `render`
writes a value that has no fault.
-/
namespace Receipt.Json

structure Style where
  afterItem : String
  afterKey : String
  /-- How far each level is indented; without it everything stands on one line. -/
  indent : Option Nat
  ascii : Bool
  deriving Repr

def Style.compact : Style := ⟨",", ":", none, false⟩

/-- One line of pure ASCII, with a space after each comma and colon. -/
def Style.line : Style := ⟨", ", ": ", none, true⟩

/-- A line for every item and member, indented by two. -/
def Style.pretty : Style := ⟨",", ": ", some 2, false⟩

/-- A code unit of sixteen bits. -/
def unit (n : Nat) : List Char := '\\' :: 'u' :: Text.Hex.digits 4 n

def escape (ascii : Bool) (c : Char) : List Char :=
  let n := c.toNat
  if c = '"' ∨ c = '\\' then ['\\', c]
  else if c = '\n' then ['\\', 'n']
  else if c = '\r' then ['\\', 'r']
  else if c = '\t' then ['\\', 't']
  else if n = 8 then ['\\', 'b']
  else if n = 12 then ['\\', 'f']
  else if n < 32 then unit n
  else if !ascii || n < 127 then [c]
  else if n < 0x10000 then unit n
  else unit (0xD800 + (n - 0x10000) / 1024) ++ unit (0xDC00 + (n - 0x10000) % 1024)

def string (ascii : Bool) (s : String) : String :=
  String.ofList ('"' :: s.toList.flatMap (escape ascii) ++ ['"'])

def number (d : Double) : String :=
  match d with
  | .nan => "NaN"
  | .infinite negative => if negative then "-Infinity" else "Infinity"
  | d => d.text

def boolText (b : Bool) : String := if b then "true" else "false"

def keyText : Key → String
  | .text s => s
  | .null => "null"
  | .bool b => boolText b
  | .int n => toString n
  | .double d => number d
  | .date d => d.text
  | .moment m => m.text

/-- The start of a line, or nothing if everything stands on one. -/
def Style.newline (st : Style) (level : Nat) : String :=
  match st.indent with
  | none => ""
  | some n => String.ofList ('\n' :: List.replicate (n * level) ' ')

/-- Written parts between brackets. -/
def Style.enclose (st : Style) (level : Nat) (opening closing : String) : List String → String
  | [] => opening ++ closing
  | parts =>
    opening ++ st.newline (level + 1) ++ joined (st.afterItem ++ st.newline (level + 1)) parts
      ++ st.newline level ++ closing

mutual
/-- Writes a value that stands `level` brackets deep. -/
def writeAt (st : Style) (level : Nat) : Value → String
  | .null => "null"
  | .bool b => boolText b
  | .int n => toString n
  | .double d => number d
  | .text s => string st.ascii s
  | .unresolved s => string st.ascii s
  | .missing => string st.ascii Value.missing.plain
  | .date d => string st.ascii d.text
  | .moment m => string st.ascii m.text
  | .list items => st.enclose level "[" "]" (writeItems st (level + 1) items)
  | .tuple items => st.enclose level "[" "]" (writeItems st (level + 1) items)
  | .map members => st.enclose level "\x7b" "\x7d" (writeMembers st (level + 1) members)

def writeItems (st : Style) (level : Nat) : List Value → List String
  | [] => []
  | v :: vs => writeAt st level v :: writeItems st level vs

def writeMembers (st : Style) (level : Nat) : List (Key × Value) → List String
  | [] => []
  | (key, v) :: rest =>
    (string st.ascii (keyText key) ++ st.afterKey ++ writeAt st level v)
      :: writeMembers st level rest
end

def write (st : Style) (v : Value) : String := writeAt st 0 v

def keyFault? : Key → Option Unwritable
  | .date _ | .moment _ => some .notJson
  | key => if key.fits then none else some .tooLong

mutual
/-- The first fault of a value in the order of writing. A strict writer takes no value that JSON
does not know; others write its text. -/
def fault? (strict : Bool) : Value → Option Unwritable
  | .int n => if Number.fits n then none else some .tooLong
  | .missing | .date _ | .moment _ => if strict then some .notJson else none
  | .list items => itemsFault? strict items
  | .tuple items => itemsFault? strict items
  | .map members => membersFault? strict members
  | _ => none

def itemsFault? (strict : Bool) : List Value → Option Unwritable
  | [] => none
  | v :: vs => (fault? strict v).or (itemsFault? strict vs)

def membersFault? (strict : Bool) : List (Key × Value) → Option Unwritable
  | [] => none
  | (key, v) :: rest => ((keyFault? key).or (fault? strict v)).or (membersFault? strict rest)
end

/-- Writes a value that is JSON. -/
def render (st : Style) (v : Value) : Except Unwritable String :=
  match fault? true v with
  | none => .ok (write st v)
  | some e => .error e

end Receipt.Json
