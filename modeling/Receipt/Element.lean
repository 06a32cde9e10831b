import Receipt.Value.Basic

/-!
# Elements

Elements are what composition gives and what is printed: texts, barcodes, rows of elements side by
side, and whatever was passed through. `toValue` writes an element as a map, without the members
that are null, and `ofValue` reads it back.
-/
namespace Receipt

inductive Element where
  | text (text align flex style : Value)
  | barcode (code barcodeType flex : Value)
  | row (children : List Element) (flex : Value)
  | passthrough (payload : Members)

namespace Element

inductive Error where
  | notMap
  | notList
  deriving DecidableEq, Repr

/-- The members that are not null. -/
def compact (members : Members) : Members :=
  members.filter fun m =>
    match m.2 with
    | .null => false
    | _ => true

mutual
def members : Element → Members
  | .text t align flex style =>
    compact [(.text "type", .text "text"), (.text "text", t), (.text "align", align),
      (.text "style", style), (.text "flex", flex)]
  | .barcode code barcodeType flex =>
    compact [(.text "type", .text "barcode"), (.text "code", code),
      (.text "barcode_type", barcodeType), (.text "flex", flex)]
  | .row children flex =>
    compact [(.text "type", .text "row"), (.text "children", .list (toValues children)),
      (.text "flex", flex)]
  | .passthrough payload => payload

def toValues : List Element → List Value
  | [] => []
  | e :: es => .map e.members :: toValues es
end

def toValue (e : Element) : Value := .map e.members

theorem toValues_eq_map (es : List Element) : toValues es = es.map toValue := by
  induction es with
  | nil => rfl
  | cons e es ih => rw [toValues, ih]; rfl

/-- The elements of a value that is no list: none if it counts as empty, and otherwise a failure,
for what going through it meets first is no element. -/
def ofNoList (v : Value) : Except Error (List Element) :=
  if !v.truthy then .ok []
  else match v.walk? with
    | none => .error .notList
    | some [] => .ok []
    | some (_ :: _) => .error .notMap

mutual
def ofValue : Value → Except Error Element
  | .map members =>
    let type := Value.getOrNull "type" members
    let flex := Value.getOrNull "flex" members
    if type.isText "text" then
      .ok (.text ((Members.get? "text" members).getD (.text "")) (Value.getOrNull "align" members)
        flex (Value.getOrNull "style" members))
    else if type.isText "barcode" then
      .ok (.barcode ((Members.get? "code" members).getD (.text ""))
        (Value.getOrNull "barcode_type" members) flex)
    else if type.isText "row" then (listUnder "children" members).map (.row · flex)
    else .ok (.passthrough members)
  | _ => .error .notMap

/-- Reads the elements under a name; there are none if the name is absent. -/
def listUnder (name : String) : List (Key × Value) → Except Error (List Element)
  | [] => .ok []
  | (key, v) :: rest => if key = .text name then listOf v else listUnder name rest

def listOf : Value → Except Error (List Element)
  | .list items => ofItems items
  | .tuple items => ofItems items
  | v => ofNoList v

/-- Reads elements in order, up to the first that is none. -/
def ofItems : List Value → Except Error (List Element)
  | [] => .ok []
  | v :: vs => do
    let e ← ofValue v
    let es ← ofItems vs
    return e :: es
end

theorem listUnder_eq (name : String) (members : Members) :
    listUnder name members =
      match members.get? name with
      | none => .ok []
      | some v => listOf v := by
  induction members with
  | nil => simp [listUnder, Members.get?]
  | cons member rest ih =>
      obtain ⟨key, v⟩ := member
      by_cases h : key = .text name <;> simp [listUnder, Members.get?, h, ih]

end Element
end Receipt
