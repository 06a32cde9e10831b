import Receipt.Yaml.Node

/-!
# The tokens of a YAML text

Plain and quoted scalars over one or more lines, as they are written. Where a token is out of place
the refusal names what it is: a scalar may turn out to be a key, and one that is farther in than the
block around it starts a block of its own.
-/
namespace Receipt.Yaml

/-- The name of the token at a place where no scalar starts. -/
def Cursor.found (c : Cursor) : String :=
  match c.rest with
  | [] => "<stream end>"
  | x :: _ =>
    if c.isDivider '-' then "<document start>"
    else if c.isDivider '.' then "<document end>"
    else String.singleton x

/-! ### Scalars -/

/-- Brackets and the like, which end a plain scalar inside brackets. -/
def isFlowMark (c : Char) : Bool := ",?[]\x7b\x7d".toList.contains c

/-- Whether a plain scalar has to end before a character. -/
def endsWord (flow : Bool) (c : Char) (next : Option Char) : Bool :=
  let closes (c : Char) : Bool := isFlowMark c && c ≠ '?'
  Cursor.isGap (some c) || (c = ':' && (Cursor.isGap next || (flow && next.any closes)))
    || (flow && isFlowMark c)

def word (flow : Bool) : List Char → List Char
  | [] => []
  | c :: cs => if endsWord flow c cs.head? then [] else c :: word flow cs

def startsPlain (flow : Bool) (cs : List Char) : Bool :=
  match cs with
  | [] => false
  | c :: rest =>
    !("-?:,[]\x7b\x7d#&*!|>'\"%@\x60 \t\r".toList.contains c || isBreak c)
      || (!Cursor.isGap rest.head? && (c = '-' || (!flow && (c = '?' || c = ':'))))

/-- Reads a plain scalar; lines that go on with it are indented at least to `indent`, unless
brackets are open. -/
def readPlain (flow : Bool) (indent : Nat) : (fuel : Nat) → Cursor → List Char × Cursor
  | 0, c => ([], c)
  | fuel + 1, c =>
    match word flow c.rest with
    | [] => ([], c)
    | w =>
      let after := c.advance w.length
      let gap := after.rest.takeWhile fun x => x = ' ' || isBreak x
      let next := after.advance gap.length
      if gap = [] || next.rest.head? = some '#' || next.atEnd || (!flow && next.column < indent)
      then (w, after)
      else match readPlain flow indent fuel next with
        | ([], _) => (w, after)
        | (more, c) => (w ++ fold gap ++ more, c)

def isQuotedGap (c : Char) : Bool := c = ' ' || c = '\t' || isBreak c

/-- Reads on in a scalar in single quotes, which started at `start`. -/
def readSingle (start : Mark) : (fuel : Nat) → Cursor → Reading (List Char × Cursor)
  | 0, c => fail .openQuote start c.mark
  | fuel + 1, c =>
    match c.rest with
    | [] => fail .openQuote start c.mark
    | '\'' :: '\'' :: _ => do
      let (cs, c) ← readSingle start fuel (c.advance 2)
      return ('\'' :: cs, c)
    | '\'' :: _ => .ok ([], c.advance 1)
    | x :: _ => do
      let gap := c.rest.takeWhile isQuotedGap
      if gap = [] then
        let (cs, c) ← readSingle start fuel (c.advance 1)
        return (x :: cs, c)
      else
        let next := c.advance gap.length
        if next.isSeparator then fail .separatorInQuotes start next.mark
        let (cs, c) ← readSingle start fuel next
        return (fold gap ++ cs, c)

def escaped? (c : Char) : Option Char :=
  match c with
  | '0' => some '\x00'
  | 'a' => some '\x07'
  | 'b' => some '\x08'
  | 't' | '\t' => some '\t'
  | 'n' => some '\n'
  | 'v' => some '\x0b'
  | 'f' => some '\x0c'
  | 'r' => some '\r'
  | 'e' => some '\x1b'
  | ' ' => some ' '
  | '"' => some '"'
  | '\\' => some '\\'
  | '/' => some '/'
  | 'N' => some '\u0085'
  | '_' => some '\u00a0'
  | 'L' => some '\u2028'
  | 'P' => some '\u2029'
  | _ => none

/-- How many hexadecimal digits follow an escape. -/
def codeLength? (c : Char) : Option Nat :=
  match c with
  | 'x' => some 2
  | 'u' => some 4
  | 'U' => some 8
  | _ => none

/-- Reads on in a scalar in double quotes, which started at `start`. -/
def readDouble (start : Mark) : (fuel : Nat) → Cursor → Reading (List Char × Cursor)
  | 0, c => fail .openQuote start c.mark
  | fuel + 1, c =>
    match c.rest with
    | [] => fail .openQuote start c.mark
    | '"' :: _ => .ok ([], c.advance 1)
    | ['\\'] => fail .openQuote start c.mark
    | '\\' :: x :: rest =>
      if isBreak x then do
        let gap := rest.takeWhile isQuotedGap
        let next := c.advance (gap.length + 2)
        if next.isSeparator then fail .separatorInQuotes start next.mark
        let (cs, c) ← readDouble start fuel next
        return (breaksIn gap ++ cs, c)
      else match escaped? x, codeLength? x with
      | some y, _ => do
        let (cs, c) ← readDouble start fuel (c.advance 2)
        return (y :: cs, c)
      | none, some n => do
        let digits := (rest.take n).takeWhile fun x => (Text.Hex.value? x).isSome
        if digits.length < n then
          fail (.badCode n (rest[digits.length]?.getD '\x00')) start (c.advance 2).mark
        let code := (Text.Hex.number? digits).getD 0
        if !code.isValidChar then throw (.noCharacter code)
        let (cs, c) ← readDouble start fuel (c.advance (n + 2))
        return (Char.ofNat code :: cs, c)
      | none, none => fail (.badEscape x) start (c.advance 1).mark
    | x :: _ => do
      let gap := c.rest.takeWhile isQuotedGap
      if gap = [] then
        let (cs, c) ← readDouble start fuel (c.advance 1)
        return (x :: cs, c)
      else
        let next := c.advance gap.length
        if next.isSeparator then fail .separatorInQuotes start next.mark
        let (cs, c) ← readDouble start fuel next
        return (fold gap ++ cs, c)

/-- Whether a token other than a scalar starts with a character. -/
def isMark (c : Char) : Bool := c = '-' || c = ':' || isFlowMark c

def readScalar (flow : Bool) (indent fuel : Nat) (c : Cursor) : Reading (Option (Node × Cursor)) :=
  if c.isSeparator then .ok none
  else match c.rest with
    | [] => .ok none
    | '\'' :: _ => do
      let (cs, c) ← readSingle c.mark fuel (c.advance 1)
      return some (.quoted (String.ofList cs), c)
    | '"' :: _ => do
      let (cs, c) ← readDouble c.mark fuel (c.advance 1)
      return some (.quoted (String.ofList cs), c)
    | x :: _ =>
      if startsPlain flow c.rest then
        let (cs, after) := readPlain flow indent fuel c
        .ok (some (.plain c.mark cs, after))
      else if isMark x then .ok none
      else fail (.badStart x) c.mark c.mark

/-! ### Tokens out of place -/

def refuse {α : Type} (problem : String → Problem) (start : Mark) (flow : Bool) (fuel : Nat)
    (c : Cursor) : Reading α := do
  match ← readScalar flow 0 fuel c with
  | some _ => fail (problem "<scalar>") start c.mark
  | none => fail (problem c.found) start c.mark

/-- Refuses the first token of a line. The parts of the block around it stand one column left of
`indent`; a key or an item farther in starts a block of its own. -/
def refuseLine {α : Type} (problem : String → Problem) (start : Mark) (indent fuel : Nat)
    (c : Cursor) : Reading α := do
  let found (mark block : String) : Problem := problem (if c.column < indent then mark else block)
  if Cursor.isAlone '-' c.rest then fail (found "-" "<block sequence start>") start c.mark
  match ← readScalar false indent fuel c with
  | none => fail (problem c.found) start c.mark
  | some (_, after) =>
    let next := after.skipSpaces
    if Cursor.isAlone ':' next.rest && next.line = c.line then
      fail (found "?" "<block mapping start>") start c.mark
    else if c.column + 1 = indent then fail .noColon c.mark next.skip.mark
    else fail (problem "<scalar>") start c.mark

/-- Refuses the token at `next`, which follows a block's last token at `c`. On the same line it is
never a key. -/
def refuseRest {α : Type} (problem : String → Problem) (start : Mark) (indent fuel : Nat)
    (c next : Cursor) : Reading α :=
  if c.line < next.line then refuseLine problem start indent fuel next
  else if Cursor.isAlone '-' next.rest then fail .entryHere next.mark next.mark
  else refuse problem start false fuel next

end Receipt.Yaml
