import Receipt.Value.Literal

/-!
# Rows of a layout

A layout is a list of rows. `Row.ofValue` reads one row from a map by its `type`; a row of a type
that has no meaning here is kept whole. `Row.listOf` reads the rows of a list, and any value that
counts as empty has none.
-/
namespace Receipt

inductive Row where
  /-- A line of text, which is a template. -/
  | text (text align flex style : Value)
  /-- A barcode, whose code is a template. -/
  | barcode (code barcodeType : Value)
  /-- Rows side by side. -/
  | group (children : List Row)
  /-- Rows that are repeated for every item of the list at a path. -/
  | iterator (path : String) (rows : List Row)
  /-- The rows of another section. -/
  | sectionRef (ref : String)
  /-- Anything else. -/
  | passthrough (payload : Members)

namespace Layout

inductive Error where
  | rowNotMap (kind : String)
  | rowsNotList
  | sectionNotMap
  | registryNotMap
  /-- A name cannot be written. -/
  | unwritable (e : Unwritable)
  deriving DecidableEq, Repr

def Error.message : Error → String
  | .rowNotMap kind => "Row must be a mapping, got " ++ kind
  | .registryNotMap => "Layout registry must be a mapping of section names"
  | .unwritable e => e.message
  | .rowsNotList | .sectionNotMap => ""

end Layout

namespace Row

/-- A name of a path or a section; a value that counts as empty is the empty name. -/
def nameOf (v : Value) : Except Layout.Error String :=
  if v.truthy then v.word.mapError .unwritable else .ok ""

/-- The rows of a value that is no list: none if it counts as empty, and otherwise a failure, for
what going through it meets first is no row. -/
def ofNoList (v : Value) : Except Layout.Error (List Row) :=
  if !v.truthy then .ok []
  else match v.walk? with
    | none => .error .rowsNotList
    | some [] => .ok []
    | some (first :: _) => .error (.rowNotMap first.kindName)

mutual
def ofValue : Value → Except Layout.Error Row
  | .map members =>
    let type := Value.getOrNull "type" members
    if type.isText "text" then
      .ok (.text ((Members.get? "text" members).getD (.text "")) (Value.getOrNull "align" members)
        (Value.getOrNull "flex" members) (Value.getOrNull "style" members))
    else if type.isText "barcode" then
      .ok (.barcode ((Members.get? "code" members).getD (.text ""))
        (Value.getOrNull "barcode_type" members))
    else if type.isText "row" then (listUnder "children" members).map .group
    else if type.isText "iterator" then do
      let path ← nameOf (Value.getOrNull "path" members)
      (listUnder "rows" members).map (.iterator path)
    else if type.isText "sectionref" then
      (nameOf (Value.getOrNull "ref" members)).map .sectionRef
    else .ok (.passthrough members)
  | v => .error (.rowNotMap v.kindName)

/-- Reads the rows under a name; there are none if the name is absent. -/
def listUnder (name : String) : List (Key × Value) → Except Layout.Error (List Row)
  | [] => .ok []
  | (key, v) :: rest => if key = .text name then listOf v else listUnder name rest

def listOf : Value → Except Layout.Error (List Row)
  | .list items => ofItems items
  | .tuple items => ofItems items
  | v => ofNoList v

/-- Reads rows in order, up to the first that is none. -/
def ofItems : List Value → Except Layout.Error (List Row)
  | [] => .ok []
  | v :: vs => do
    let row ← ofValue v
    let rows ← ofItems vs
    return row :: rows
end

theorem listUnder_eq (name : String) (members : Members) :
    listUnder name members =
      match members.get? name with
      | none => .ok []
      | some v => listOf v := by
  induction members with
  | nil => simp [listUnder, Members.get?]
  | cons member rest ih =>
      obtain ⟨key, v⟩ := member
      by_cases h : key = .text name <;> simp [listUnder, Members.get?, h, ih]

end Row
end Receipt
