import Receipt.Yaml.Token

/-!
# Reading YAML

The reader takes the YAML of plain documents: block mappings and sequences by their indentation,
flow collections in brackets, scalars, comments, and one document with or without its dividing
lines. Anchors, tags, explicit keys and block scalars are refused.
-/
namespace Receipt.Yaml

/-! ### Collections -/

mutual
def readLeaf (flow : Bool) (indent : Nat) : (fuel : Nat) → Cursor → Reading (Node × Cursor)
  | 0, c => fail (.noContent flow c.found) c.mark c.mark
  | fuel + 1, c =>
    match c.rest.head? with
    | some '[' => do
      let (nodes, c) ← readItems c.mark fuel (c.advance 1).skip
      return (.sequence nodes, c)
    | some '\x7b' => do
      let (members, after) ← readMembers c.mark fuel (c.advance 1).skip
      return (.mapping c.mark members, after)
    | first => do
      match ← readScalar flow indent fuel c with
      | some read => return read
      | none =>
        if !flow && first = some ':' then fail .valueHere c.mark c.mark
        else fail (.noContent flow c.found) c.mark c.mark

/-- Reads what follows a colon inside brackets that end with `close`. -/
def readFlowValue (close : Char) : (fuel : Nat) → Cursor → Reading (Node × Cursor)
  | 0, c => fail (.noContent true c.found) c.mark c.mark
  | fuel + 1, c =>
    if c.rest.head? = some ',' || c.rest.head? = some close then .ok (.plain c.mark [], c)
    else readLeaf true 0 fuel c

/-- Reads the items between square brackets, which were opened at `start`. -/
def readItems (start : Mark) : (fuel : Nat) → Cursor → Reading (List Node × Cursor)
  | 0, c => fail (.inItems c.found) start c.mark
  | fuel + 1, c => do
    if c.rest.head? = some ']' then return ([], c.advance 1)
    let (node, after) ← readLeaf true 0 fuel c
    let next := after.skip
    let (node, next) ←
      if next.rest.head? = some ':' && next.line = c.line then do
        let (value, next) ← readFlowValue ']' fuel (next.advance 1).skip
        pure (.mapping c.mark [(node, c.mark, value)], next.skip)
      else pure (node, next)
    match next.rest.head? with
    | some ']' => return ([node], next.advance 1)
    | some ',' =>
      let (nodes, c) ← readItems start fuel (next.advance 1).skip
      return (node :: nodes, c)
    | _ => refuse .inItems start true fuel next

/-- Reads the members between curly brackets, which were opened at `start`. -/
def readMembers (start : Mark) :
    (fuel : Nat) → Cursor → Reading (List (Node × Mark × Node) × Cursor)
  | 0, c => fail (.inMembers c.found) start c.mark
  | fuel + 1, c => do
    if c.rest.head? = some '\x7d' then return ([], c.advance 1)
    let (key, after) ← readLeaf true 0 fuel c
    let next := after.skip
    let (value, next) ←
      if next.rest.head? = some ':' && next.line = c.line then do
        let (value, next) ← readFlowValue '\x7d' fuel (next.advance 1).skip
        pure (value, next.skip)
      else pure (.plain after.mark [], next)
    match next.rest.head? with
    | some '\x7d' => return ([(key, c.mark, value)], next.advance 1)
    | some ',' =>
      let (members, after) ← readMembers start fuel (next.advance 1).skip
      return ((key, c.mark, value) :: members, after)
    | _ => refuse .inMembers start true fuel next
end

/-! Every reader of a block takes and gives a cursor behind the last token, so that it shows whether
the next token is on a new line. -/

mutual
/-- Reads a node that is indented at least to `indent`; there is none if the next token stands
farther left. -/
def readBlock (indent : Nat) : (fuel : Nat) → Cursor → Reading (Node × Cursor)
  | 0, c => fail (.noContent false c.found) c.mark c.mark
  | fuel + 1, c => do
    let next := c.skip
    if next.atEnd || next.column < indent then return (.plain next.mark [], c)
    if Cursor.isAlone '-' next.rest then
      let (nodes, after) ← readSequence next.mark false fuel c
      return (.sequence nodes, after)
    let (node, after) ← readLeaf false indent fuel next
    let colon := after.skipSpaces
    if Cursor.isAlone ':' colon.rest then
      if colon.line ≠ next.line then fail .valueHere colon.mark colon.mark
      let (value, after) ← readValue (next.column + 1) fuel (colon.advance 1)
      let (members, after) ← readMapping next.mark fuel after
      return (.mapping next.mark ((node, next.mark, value) :: members), after)
    else return (node, after)

/-- Reads what follows a key or a line that starts a document: a node that is indented at least to
`indent`, or a scalar or a collection in brackets on the same line. The items of a sequence may be
as far left as the key. -/
def readValue (indent : Nat) : (fuel : Nat) → Cursor → Reading (Node × Cursor)
  | 0, c => fail (.noContent false c.found) c.mark c.mark
  | fuel + 1, c => do
    let here := c.skipSpaces
    if here.atLineEnd then
      let next := c.skip
      if !next.atEnd && next.column + 1 = indent && Cursor.isAlone '-' next.rest then
        let (nodes, after) ← readSequence next.mark true fuel c
        return (.sequence nodes, after)
      else readBlock indent fuel c
    else if Cursor.isAlone '-' here.rest then fail .entryHere here.mark here.mark
    else
      let (node, after) ← readLeaf false indent fuel here
      let next := after.skipSpaces
      if Cursor.isAlone ':' next.rest then fail .valueHere next.mark next.mark
      else return (node, after)

/-- Reads the members of a mapping from the second on. -/
def readMapping (start : Mark) :
    (fuel : Nat) → Cursor → Reading (List (Node × Mark × Node) × Cursor)
  | 0, c => fail (.inMapping c.found) start c.mark
  | fuel + 1, c => do
    let next := c.skip
    if next.atEnd || next.column < start.column then return ([], c)
    if start.column < next.column || next.line = c.line || Cursor.isAlone '-' next.rest then
      refuseRest .inMapping start (start.column + 1) fuel c next
    let (key, after) ← readLeaf false (start.column + 1) fuel next
    let colon := after.skipSpaces
    if !Cursor.isAlone ':' colon.rest || colon.line ≠ next.line then
      fail .noColon next.mark colon.skip.mark
    let (value, after) ← readValue (start.column + 1) fuel (colon.advance 1)
    let (members, after) ← readMapping start fuel after
    return ((key, next.mark, value) :: members, after)

/-- Reads the items of a sequence. One that stands under the key of a mapping, as far left as the
key, ends with the next token that starts no item of it. -/
def readSequence (start : Mark) (underKey : Bool) :
    (fuel : Nat) → Cursor → Reading (List Node × Cursor)
  | 0, c => fail (.inSequence c.found) start c.mark
  | fuel + 1, c => do
    let next := c.skip
    if next.atEnd || next.column < start.column then return ([], c)
    if next.column = start.column && Cursor.isAlone '-' next.rest then
      let (node, after) ← readBlock (start.column + 1) fuel (next.advance 1)
      let (nodes, after) ← readSequence start underKey fuel after
      return (node :: nodes, after)
    else if underKey then return ([], c)
    else refuseRest .inSequence start (start.column + 1) fuel c next
end

/-! ### Documents -/

def isPrintable (c : Char) : Bool :=
  let n := c.toNat
  c = '\t' || c = '\n' || c = '\r' || (0x20 ≤ n && n ≤ 0x7e) || n = 0x85
    || (0xa0 ≤ n && n ≤ 0xd7ff) || (0xe000 ≤ n && n ≤ 0xfffd) || 0x10000 ≤ n

def skipEnds : (fuel : Nat) → Cursor → Cursor
  | 0, c => c
  | fuel + 1, c => if c.skip.isDivider '.' then skipEnds fuel (c.skip.advance 3) else c

/-- Whatever follows the first document, which started at `start`, has to be nothing. -/
def readEnd (start : Mark) (fuel : Nat) (c : Cursor) : Reading Unit :=
  let c := skipEnds fuel c
  let next := c.skip
  if next.rest = [] then .ok ()
  else if next.isDivider '-' then fail .moreDocuments start next.mark
  else refuseRest .noDocument start 0 fuel c next

/-- Reads the one document of a text, from its dividing line on if it has one. -/
def readDocument (fuel : Nat) (c : Cursor) : Reading Node := do
  let next := c.skip
  if next.isDivider '.' then fail (.noContent false next.found) next.mark next.mark
  let first := if next.isDivider '-' then next.advance 3 else c
  let (node, after) ←
    if next.isDivider '-' then readValue 0 fuel first else readBlock 0 fuel first
  readEnd first.skip.mark fuel after
  return node

/-- Reads a text that holds one document; a text without any holds nothing. Four steps for each
character are more than any text takes. -/
def read? (text : List Char) : Except Error Value := do
  match text.dropWhile isPrintable with
  | c :: rest => .error (.unprintable c (text.length - rest.length - 1))
  | [] =>
    let text := if text.head? = some '\uFEFF' then text.tail else text
    let node ← readDocument (4 * text.length + 8) ⟨text, ⟨0, 0⟩⟩
    node.value

end Receipt.Yaml
