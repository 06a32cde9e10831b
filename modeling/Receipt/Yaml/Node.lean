import Receipt.Yaml.Problem

/-!
# The nodes of a YAML document

A document is read into nodes first, and its scalars are read when all of it has proved well-formed.
Of several scalars that cannot be read the one nested least is reported, and of those the first.
Of several members with one key the last counts, in the place of the first.
-/
namespace Receipt.Yaml

/-- What a document holds, before its scalars are read. -/
inductive Node where
  | plain (start : Mark) (cs : List Char)
  | quoted (s : String)
  | sequence (items : List Node)
  /-- Every member is its key, the place where the key starts, and its value. -/
  | mapping (start : Mark) (members : List (Node × Mark × Node))

namespace Node

/-- An error and how deep it is nested. -/
abbrev Valued := Except (Nat × Error)

/-- Two parts of a value; of two errors the less deep one counts, and of equally deep ones the
first. -/
def both {α β : Type} (a : Valued α) (b : Valued β) : Valued (α × β) :=
  match a, b with
  | .ok x, .ok y => .ok (x, y)
  | .ok _, .error e => .error e
  | .error e, .ok _ => .error e
  | .error e, .error f => if f.1 < e.1 then .error f else .error e

/-- The tag of a plain scalar that has a meaning to keys only. -/
def keyTag? (cs : List Char) : Option String :=
  if cs = ['='] then some "tag:yaml.org,2002:value"
  else if cs = ['<', '<'] then some "tag:yaml.org,2002:merge"
  else none

def plainValue (depth : Nat) (start : Mark) (cs : List Char) : Valued Value :=
  match keyTag? cs with
  | some tag => .error (depth, .malformed (.noMeaning tag) start start)
  | none => (Scalar.value cs).mapError fun e => (depth, .scalar e)

def keyOf? : Value → Option Key
  | .text s => some (.text s)
  | .null => some .null
  | .bool b => some (.bool b)
  | .int n => some (.int n)
  | .double d => some (.double d)
  | .date d => some (.date d)
  | .moment m => some (.moment m)
  | _ => none

/-- The key that a node is, in the mapping that starts at `start`. -/
def key (depth : Nat) (start mark : Mark) (node : Node) : Valued Key :=
  let refusal : Nat × Error := (depth, .malformed .keyNotScalar start mark)
  match node with
  | .plain _ cs =>
    match keyTag? cs, Scalar.value cs with
    | some _, _ => .ok (.text (String.ofList cs))
    | none, .ok v => (keyOf? v).elim (.error refusal) .ok
    | none, .error e => .error (depth, .scalar e)
  | .quoted s => .ok (.text s)
  | .sequence _ | .mapping _ _ => .error refusal

mutual
def valueAt (depth : Nat) : Node → Valued Value
  | .plain start cs => plainValue depth start cs
  | .quoted s => .ok (.text s)
  | .sequence items => (valuesAt (depth + 1) items).map .list
  | .mapping start members =>
    (membersAt start (depth + 1) members).map fun ms => .map (Members.ofList ms)

def valuesAt (depth : Nat) : List Node → Valued (List Value)
  | [] => .ok []
  | node :: nodes =>
    (both (node.valueAt depth) (valuesAt depth nodes)).map fun (v, vs) => v :: vs

/-- The members of the mapping that starts at `start`. -/
def membersAt (start : Mark) (depth : Nat) : List (Node × Mark × Node) → Valued Members
  | [] => .ok []
  | (keyNode, mark, node) :: rest =>
    (both (both (key depth start mark keyNode) (node.valueAt depth))
      (membersAt start depth rest)).map fun (m, ms) => m :: ms
end

/-- The value that a document's node stands for. -/
def value (node : Node) : Except Error Value := (node.valueAt 0).mapError Prod.snd

end Node
end Receipt.Yaml
