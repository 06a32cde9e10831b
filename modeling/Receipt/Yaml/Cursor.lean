import Receipt.Text.Quoted

/-!
# Places in a YAML text

A cursor is the rest of a text with the line and the column where it starts. Line breaks and blanks
between words fold: one break is a space, and of several breaks one is dropped. The separators of
lines and of paragraphs are breaks that are kept as they are.
-/
namespace Receipt.Yaml

/-- Whether a character is kept when lines fold. -/
def isKeptBreak (c : Char) : Bool := c = '\u2028' || c = '\u2029'

def isBreak (c : Char) : Bool := c = '\n' || c = '\u0085' || isKeptBreak c

/-- A place in a text; lines and columns count from zero. -/
structure Mark where
  line : Nat
  column : Nat
  deriving DecidableEq, Repr

/-- The place as messages about a document give it. -/
def Mark.message (name : String) (m : Mark) : String :=
  "  in \"" ++ name ++ "\", line " ++ toString (m.line + 1)
    ++ ", column " ++ toString (m.column + 1)

structure Cursor where
  rest : List Char
  mark : Mark

namespace Cursor

/-- The place behind a character. -/
def pass (m : Mark) (c : Char) : Mark :=
  if isBreak c then ⟨m.line + 1, 0⟩ else ⟨m.line, m.column + 1⟩

def advance (c : Cursor) (n : Nat) : Cursor := ⟨c.rest.drop n, (c.rest.take n).foldl pass c.mark⟩

def column (c : Cursor) : Nat := c.mark.column

def line (c : Cursor) : Nat := c.mark.line

/-- Whether a word ends before this character or at the end of the text. -/
def isGap : Option Char → Bool
  | none => true
  | some c => c = ' ' || c = '\t' || c = '\r' || isBreak c

/-- Whether a character stands alone: with a gap behind it. -/
def isAlone (mark : Char) (cs : List Char) : Bool :=
  match cs with
  | c :: rest => c = mark && isGap rest.head?
  | [] => false

/-- Whether three dots or dashes at the start of a line divide documents here. -/
def isDivider (mark : Char) (c : Cursor) : Bool :=
  match c.rest with
  | x :: y :: z :: rest =>
    c.column = 0 && x = mark && y = mark && z = mark && isGap rest.head?
  | _ => false

/-- Whether a line that divides documents starts here. -/
def isSeparator (c : Cursor) : Bool := c.isDivider '-' || c.isDivider '.'

def atEnd (c : Cursor) : Bool := c.rest.isEmpty || c.isSeparator

/-- How many characters of spaces, line breaks and comments stand in front. -/
def skipLength (inComment : Bool) : List Char → Nat
  | [] => 0
  | c :: cs =>
    if isBreak c then skipLength false cs + 1
    else if inComment then skipLength true cs + 1
    else if c = ' ' then skipLength false cs + 1
    else if c = '#' then skipLength true cs + 1
    else 0

def skip (c : Cursor) : Cursor := c.advance (skipLength false c.rest)

def skipSpaces (c : Cursor) : Cursor := c.advance (c.rest.takeWhile (· = ' ')).length

/-- Whether nothing but a comment is left on the line. -/
def atLineEnd (c : Cursor) : Bool :=
  match c.rest.head? with
  | none => true
  | some x => isBreak x || x = '#'

end Cursor

/-- The breaks among blanks, each as it is kept. -/
def breaksIn (blanks : List Char) : List Char :=
  (blanks.filter isBreak).map fun c => if isKeptBreak c then c else '\n'

/-- The text that a run of blanks stands for. -/
def fold (blanks : List Char) : List Char :=
  match breaksIn blanks with
  | [] => blanks
  | ['\n'] => [' ']
  | '\n' :: more => more
  | breaks => breaks

end Receipt.Yaml
