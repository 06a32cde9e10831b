import Receipt.Number.Double
import Receipt.Time.Moment

/-!
# Data values

Receipt data and layouts are nested values: scalars, lists, and maps whose members keep their
order. Two markers stand beside them: `missing`, which is what a path that leads nowhere finds, and
`unresolved`, a text that remembers the path it stands for. Texts are sequences of Unicode
characters, so that each can be written as UTF-8: half of a surrogate pair alone is none of them.

`Members.get?` looks a name up among the members of a map; what it finds is smaller than the map,
so that recursion over a value may go through a lookup.
-/
namespace Receipt

/-- A key of a map. Keys other than text occur in documents only. -/
inductive Key where
  | text (s : String)
  | null
  | bool (b : Bool)
  | int (n : Int)
  | double (d : Double)
  | date (d : Time.Date)
  | moment (m : Time.Moment)
  deriving DecidableEq, Repr

inductive Value where
  | null
  | missing
  | bool (b : Bool)
  | int (n : Int)
  | double (d : Double)
  | text (s : String)
  | unresolved (path : String)
  | date (d : Time.Date)
  | moment (m : Time.Moment)
  | list (items : List Value)
  | tuple (items : List Value)
  | map (members : List (Key × Value))
  deriving Repr, Inhabited

abbrev Members := List (Key × Value)

namespace Members

def get? (name : String) : Members → Option Value
  | [] => none
  | (key, value) :: rest => if key = .text name then some value else get? name rest

/-- Puts a value under a key, in the key's old place if it has one. -/
def put (key : Key) (value : Value) : Members → Members
  | [] => [(key, value)]
  | member :: rest =>
    if member.1 = key then (key, value) :: rest else member :: put key value rest

/-- The map that holds the given members, the last of several with one key. -/
def ofList (members : List (Key × Value)) : Members :=
  members.foldl (fun ms m => put m.1 m.2 ms) []

theorem mem_of_get? {name : String} {members : Members} {value : Value}
    (h : get? name members = some value) : (Key.text name, value) ∈ members := by
  induction members with
  | nil => simp [get?] at h
  | cons member rest ih =>
      obtain ⟨key, other⟩ := member
      simp only [get?] at h
      split at h
      · next hk => simp_all
      · simp [ih h]

theorem sizeOf_get?_lt {name : String} {members : Members} {value : Value}
    (h : get? name members = some value) : sizeOf value < sizeOf members := by
  have hm := List.sizeOf_lt_of_mem (mem_of_get? h)
  simp only [Prod.mk.sizeOf_spec] at hm
  omega

end Members

namespace Value

/-- The member under a name; none also for a value that is no map. -/
def get? (name : String) : Value → Option Value
  | .map members => Members.get? name members
  | _ => none

/-- The member under a name, null if there is none. -/
def getOrNull (name : String) (members : Members) : Value := (members.get? name).getD .null

/-- Whether a condition takes the value for true: everything but null, `missing`, false, zero and
what is empty. -/
def truthy : Value → Bool
  | .null | .missing => false
  | .bool b => b
  | .int n => n ≠ 0
  | .double d => !d.isZero
  | .text s | .unresolved s => s ≠ ""
  | .date _ | .moment _ => true
  | .list items | .tuple items => !items.isEmpty
  | .map members => !members.isEmpty

/-- The text that a value is; an unresolved path is a text too. -/
def text? : Value → Option String
  | .text s | .unresolved s => some s
  | _ => none

def isText (s : String) (v : Value) : Bool := v.text? = some s

/-- The name of the value's kind, as messages give it. -/
def kindName : Value → String
  | .null => "NoneType"
  | .missing => "_Missing"
  | .bool _ => "bool"
  | .int _ => "int"
  | .double _ => "float"
  | .text _ => "str"
  | .unresolved _ => "UnresolvedPath"
  | .date _ => "date"
  | .moment _ => "datetime"
  | .list _ => "list"
  | .tuple _ => "tuple"
  | .map _ => "dict"

/-- What going through the value in order meets: the items of a list, the keys of a map, the
characters of a text. None if the value has no order to go through. -/
def walk? : Value → Option (List Value)
  | .list items | .tuple items => some items
  | .map members => some (members.map fun m =>
      match m.1 with
      | .text s => .text s
      | .null => .null
      | .bool b => .bool b
      | .int n => .int n
      | .double d => .double d
      | .date d => .date d
      | .moment m => .moment m)
  | .text s | .unresolved s => some (s.toList.map fun c => .text (String.singleton c))
  | _ => none

mutual
/-- How many lists and maps lie around the innermost value. -/
def depth : Value → Nat
  | .list items => depthOfItems items + 1
  | .tuple items => depthOfItems items + 1
  | .map members => depthOfMembers members + 1
  | _ => 0

def depthOfItems : List Value → Nat
  | [] => 0
  | v :: vs => max v.depth (depthOfItems vs)

def depthOfMembers : List (Key × Value) → Nat
  | [] => 0
  | (_, v) :: rest => max v.depth (depthOfMembers rest)
end

end Value
end Receipt
