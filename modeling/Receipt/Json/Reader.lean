import Receipt.Number.Reader
import Receipt.Text.Hex
import Receipt.Value.Basic

/-!
# Reading JSON

The reader takes one value with blanks around it, and the numbers `NaN`, `Infinity` and
`-Infinity`. Members keep their order; of several members with one name the last counts, in the
place of the first. A refusal names the place where reading could not go on.

Texts are sequences of Unicode characters. An escape that writes one half of a surrogate pair alone
writes none, and a document with such an escape is refused.
-/
namespace Receipt.Json

inductive Problem where
  | noValue
  | noName
  | noColon
  | noComma
  | unterminated
  | control
  | escape
  | unicodeEscape
  /-- Half of a surrogate pair without the other half. -/
  | loneSurrogate
  | extra
  | byteOrderMark
  /-- A whole number has too many digits. -/
  | longNumber (digits : Nat)
  deriving DecidableEq, Repr

def Problem.message : Problem → String
  | .noValue => "Expecting value"
  | .noName => "Expecting property name enclosed in double quotes"
  | .noColon => "Expecting ':' delimiter"
  | .noComma => "Expecting ',' delimiter"
  | .unterminated => "Unterminated string starting at"
  | .control => "Invalid control character at"
  | .escape => "Invalid \\escape"
  | .unicodeEscape => "Invalid \\uXXXX escape"
  | .loneSurrogate => "surrogates not allowed"
  | .extra => "Extra data"
  | .byteOrderMark => "Unexpected UTF-8 BOM (decode using utf-8-sig)"
  | .longNumber digits => Number.tooLongMessage digits

/-- A problem and its place: characters from the start, line, and column in the line. -/
structure Error where
  problem : Problem
  position : Nat
  line : Nat
  column : Nat
  deriving DecidableEq, Repr

/-- What the problem is and where; the place of a number with too many digits is not told. -/
def Error.message (e : Error) : String :=
  match e.problem with
  | .longNumber digits => Problem.message (.longNumber digits)
  | problem =>
    problem.message ++ ": line " ++ toString e.line ++ " column " ++ toString e.column
      ++ " (char " ++ toString e.position ++ ")"

/-- The place of a position in a text; lines and columns count from one. -/
def Error.locate (text : List Char) (problem : Problem) (position : Nat) : Error :=
  let before := text.take position
  ⟨problem, position, before.count '\n' + 1, (before.reverse.takeWhile (· ≠ '\n')).length + 1⟩

/-- The rest of a text, and how many characters came before it. -/
structure Cursor where
  position : Nat
  rest : List Char

abbrev Reading := Except (Problem × Nat)

namespace Cursor

def advance (c : Cursor) (n : Nat) : Cursor := ⟨c.position + n, c.rest.drop n⟩

def isSpace (c : Char) : Bool := c = ' ' || c = '\t' || c = '\n' || c = '\r'

def skipSpace (c : Cursor) : Cursor := c.advance (c.rest.takeWhile isSpace).length

end Cursor

def fourDigits? : List Char → Option Nat
  | a :: b :: c :: d :: _ => Text.Hex.number? [a, b, c, d]
  | _ => none

def isHighSurrogate (n : Nat) : Bool := 0xD800 ≤ n && n < 0xDC00
def isLowSurrogate (n : Nat) : Bool := 0xDC00 ≤ n && n < 0xE000

/-- The character of a code unit, whose digits stand at the cursor; a surrogate alone has none. -/
def readSingle (n : Nat) (c : Cursor) : Reading (Char × Cursor) :=
  if isHighSurrogate n || isLowSurrogate n then .error (.loneSurrogate, c.position - 2)
  else .ok (Char.ofNat n, c.advance 4)

/-- Reads the digits of an escape, at the cursor, and the other half of a surrogate pair if it
follows. At least one character has to be left behind either half. -/
def readUnit (c : Cursor) : Reading (Char × Cursor) :=
  match fourDigits? c.rest, c.rest.drop 4 with
  | some n, '\\' :: 'u' :: more =>
    if isHighSurrogate n && 4 < more.length then
      match fourDigits? more with
      | none => .error (.unicodeEscape, c.position + 5)
      | some low =>
        if isLowSurrogate low then
          .ok (Char.ofNat (0x10000 + (n - 0xD800) * 1024 + (low - 0xDC00)), c.advance 10)
        else readSingle n c
    else readSingle n c
  | some n, _ :: _ => readSingle n c
  | _, _ => .error (.unicodeEscape, c.position - 1)

/-- The character that a short escape stands for. -/
def shortEscape? : Char → Option Char
  | '"' => some '"'
  | '\\' => some '\\'
  | '/' => some '/'
  | 'b' => some '\x08'
  | 'f' => some '\x0c'
  | 'n' => some '\n'
  | 'r' => some '\r'
  | 't' => some '\t'
  | _ => none

/-- Reads a string after its opening quote, which stands at `start`; `seen` holds the characters so
far in reverse. -/
def readString (start : Nat) : (fuel : Nat) → (seen : List Char) → Cursor →
    Reading (String × Cursor)
  | 0, _, _ => .error (.unterminated, start)
  | fuel + 1, seen, cursor =>
    match cursor.rest with
    | [] => .error (.unterminated, start)
    | '"' :: _ => .ok (String.ofList seen.reverse, cursor.advance 1)
    | ['\\'] => .error (.unterminated, start)
    | '\\' :: 'u' :: _ => do
      let (c, cursor) ← readUnit (cursor.advance 2)
      readString start fuel (c :: seen) cursor
    | '\\' :: name :: _ =>
      match shortEscape? name with
      | none => .error (.escape, cursor.position)
      | some c => readString start fuel (c :: seen) (cursor.advance 2)
    | c :: _ =>
      if c.toNat < 32 then .error (.control, cursor.position)
      else readString start fuel (c :: seen) (cursor.advance 1)

/-- The lengths of a number's parts at the front: sign and digits, fraction, exponent. -/
def numberParts? (cs : List Char) : Option (Nat × Nat × Nat) :=
  let sign := if cs.head? = some '-' then 1 else 0
  let body := cs.drop sign
  let whole :=
    if body.head? = some '0' then 1 else (body.takeWhile Char.isDigit).length
  if whole = 0 then none
  else
    let rest := body.drop whole
    let places :=
      match rest with
      | '.' :: more => (more.takeWhile Char.isDigit).length
      | _ => 0
    let fraction := if places = 0 then 0 else places + 1
    let rest := rest.drop fraction
    let exponent :=
      match rest with
      | e :: more =>
        if e = 'e' ∨ e = 'E' then
          let sign := if more.head? = some '-' ∨ more.head? = some '+' then 1 else 0
          let ds := ((more.drop sign).takeWhile Char.isDigit).length
          if ds = 0 then 0 else 1 + sign + ds
        else 0
      | [] => 0
    some (sign + whole, fraction, exponent)

/-- A number, and how many characters it takes: whole, unless it has a fraction or an exponent. -/
def readNumber (cs : List Char) : Except Problem (Value × Nat) :=
  match numberParts? cs with
  | none => .error .noValue
  | some (whole, fraction, exponent) =>
    let length := whole + fraction + exponent
    let written := cs.take length
    if fraction = 0 ∧ exponent = 0 then
      match Number.readInt written with
      | .ok n => .ok (.int n, length)
      | .error (.tooLong digits) => .error (.longNumber digits)
      | .error .malformed => .error .noValue
    else
      match Number.readDecimal? written with
      | some d => .ok (.double d.toDouble, length)
      | none => .error .noValue

def wordValues : List (String × Value) :=
  [("null", .null), ("true", .bool true), ("false", .bool false), ("NaN", .double .nan),
    ("Infinity", .double (.infinite false)), ("-Infinity", .double (.infinite true))]

def readWord? (cs : List Char) : Option (Value × Nat) :=
  (wordValues.find? fun w => w.1.toList.isPrefixOf cs).map fun w => (w.2, w.1.length)

mutual
def readValue : (fuel : Nat) → Cursor → Reading (Value × Cursor)
  | 0, cursor => .error (.noValue, cursor.position)
  | fuel + 1, cursor =>
    match cursor.rest with
    | '"' :: _ => do
      let (s, cursor) ← readString cursor.position fuel [] (cursor.advance 1)
      return (.text s, cursor)
    | '[' :: _ =>
      let inside := (cursor.advance 1).skipSpace
      if inside.rest.head? = some ']' then .ok (.list [], inside.advance 1)
      else do
        let (items, cursor) ← readItems fuel inside
        return (.list items, cursor)
    | '\x7b' :: _ =>
      let inside := (cursor.advance 1).skipSpace
      if inside.rest.head? = some '\x7d' then .ok (.map [], inside.advance 1)
      else do
        let (members, cursor) ← readMembers fuel inside
        return (.map (Members.ofList members), cursor)
    | cs =>
      match readWord? cs with
      | some (v, n) => .ok (v, cursor.advance n)
      | none =>
        match readNumber cs with
        | .ok (v, n) => .ok (v, cursor.advance n)
        | .error problem => .error (problem, cursor.position)

def readItems : (fuel : Nat) → Cursor → Reading (List Value × Cursor)
  | 0, cursor => .error (.noValue, cursor.position)
  | fuel + 1, cursor => do
    let (v, cursor) ← readValue fuel cursor
    let cursor := cursor.skipSpace
    match cursor.rest.head? with
    | some ']' => return ([v], cursor.advance 1)
    | some ',' =>
      let (vs, cursor) ← readItems fuel (cursor.advance 1).skipSpace
      return (v :: vs, cursor)
    | _ => throw (.noComma, cursor.position)

def readMembers : (fuel : Nat) → Cursor → Reading (List (Key × Value) × Cursor)
  | 0, cursor => .error (.noValue, cursor.position)
  | fuel + 1, cursor => do
    if cursor.rest.head? ≠ some '"' then throw (.noName, cursor.position)
    let (name, cursor) ← readString cursor.position fuel [] (cursor.advance 1)
    let cursor := cursor.skipSpace
    if cursor.rest.head? ≠ some ':' then throw (.noColon, cursor.position)
    let (v, cursor) ← readValue fuel (cursor.advance 1).skipSpace
    let cursor := cursor.skipSpace
    match cursor.rest.head? with
    | some '\x7d' => return ([(.text name, v)], cursor.advance 1)
    | some ',' =>
      let (more, cursor) ← readMembers fuel (cursor.advance 1).skipSpace
      return ((.text name, v) :: more, cursor)
    | _ => throw (.noComma, cursor.position)
end

/-- Reads a whole text. Two steps for each character are more than any text takes. -/
def read? (text : List Char) : Except Error Value :=
  let answer : Reading Value := do
    if text.head? = some '\uFEFF' then throw (.byteOrderMark, 0)
    let (v, cursor) ← readValue (2 * text.length + 2) (Cursor.mk 0 text).skipSpace
    let cursor := cursor.skipSpace
    if cursor.rest.isEmpty then return v else throw (.extra, cursor.position)
  answer.mapError fun (problem, position) => Error.locate text problem position

end Receipt.Json
