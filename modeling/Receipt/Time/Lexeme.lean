import Receipt.Text.Blank
import Receipt.Text.Digit
import Receipt.Text.Letter

/-!
# The words of date text

Free date text is cut into words of letters, numbers, single blanks and single signs. Points may
join words and numbers; a joined run that is no plain decimal is cut apart again at its points and
commas. NUL characters are not there at all.
-/
namespace Receipt.Time.Lexeme

open Text

/-- What a run of characters is so far. -/
inductive Run where
  | word | number | dottedWord | dottedNumber
  deriving DecidableEq, Repr

/-- The run after one more character, none if it does not go on. `length` counts the characters so
far and `last` is the last of them. -/
def Run.next? (length : Nat) (last : Char) (c : Char) : Run → Option Run
  | .word =>
    if isLetter c then some .word else if c = '.' then some .dottedWord else none
  | .number =>
    if isDigitSign c then some .number
    else if c = '.' ∨ (c = ',' ∧ 2 ≤ length) then some .dottedNumber else none
  | .dottedWord =>
    if c = '.' ∨ isLetter c then some .dottedWord
    else if isDigitSign c ∧ last = '.' then some .dottedNumber else none
  | .dottedNumber =>
    if c = '.' ∨ isDigitSign c then some .dottedNumber
    else if isLetter c ∧ last = '.' then some .dottedWord else none

def Run.hasLetters : Run → Bool
  | .word | .dottedWord => true
  | .number | .dottedNumber => false

def Run.isDotted : Run → Bool
  | .dottedWord | .dottedNumber => true
  | .word | .number => false

/-- Follows a run: how many characters go on, what the run is at its end, and whether it went on
from a word. -/
def extend (length : Nat) (last : Char) (letters : Bool) (run : Run) :
    List Char → Nat × Run × Bool
  | [] => (0, run, letters)
  | c :: cs =>
    match run.next? length last c with
    | none => (0, run, letters || run.hasLetters)
    | some next =>
      let r := extend (length + 1) c (letters || run.hasLetters) next cs
      (r.1 + 1, r.2)

/-- Cuts at points and commas and keeps them as pieces of their own. -/
def cutPoints : List Char → List (List Char)
  | [] => []
  | c :: cs =>
    if c = '.' ∨ c = ',' then [c] :: cutPoints cs
    else match cutPoints cs with
      | [] => [[c]]
      | piece :: more =>
        if piece = ['.'] ∨ piece = [','] then [c] :: piece :: more else (c :: piece) :: more

/-- The words that a run of characters gives. -/
def wordsOf (run : Run) (letters : Bool) (cs : List Char) : List (List Char) :=
  let ends := cs.getLast? = some '.' || cs.getLast? = some ','
  if run.isDotted && (letters || 1 < cs.count '.' || ends) then cutPoints cs
  else if run = .dottedNumber && cs.count '.' = 0 then
    [cs.map fun c => if c = ',' then '.' else c]
  else [cs]

/-- Cuts text without NUL into words. -/
def cut : List Char → List (List Char)
  | [] => []
  | c :: cs =>
    let start := if isLetter c then some Run.word else if isDigitSign c then some .number else none
    match start with
    | none => (if isBlank c then [' '] else [c]) :: cut cs
    | some run =>
      let r := extend 1 c false run cs
      wordsOf r.2.1 r.2.2 (c :: cs.take r.1) ++ cut (cs.drop r.1)
termination_by cs => cs.length
decreasing_by all_goals simp only [List.length_cons, List.length_drop]; omega

def ofText (cs : List Char) : List String :=
  (cut (cs.filter (· ≠ '\x00'))).map String.ofList

end Receipt.Time.Lexeme
