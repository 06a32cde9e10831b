import Receipt.Codec.Varint
import Receipt.Json.Writer

/-!
# Items of an encoded receipt

An item is an element or a row in the form that the binary format keeps: texts are texts, what may
be absent is absent, and everything else is dropped. `Item.ofValue` brings a map into this form, if
its texts and conditions can be written, and `Item.toValue` writes it as a map again.
-/
namespace Receipt.Codec

/-- The kinds of items. -/
inductive Kind where
  | text | picture | barcode | pageBreak | horizontalLine | row | sectionRef | iterator
  deriving DecidableEq, Repr

namespace Kind

def all : List Kind :=
  [.text, .picture, .barcode, .pageBreak, .horizontalLine, .row, .sectionRef, .iterator]

/-- The kind as the `type` of a map. -/
def name : Kind → String
  | .text => "text"
  | .picture => "picture"
  | .barcode => "barcode"
  | .pageBreak => "pagebreak"
  | .horizontalLine => "horizontalline"
  | .row => "row"
  | .sectionRef => "sectionref"
  | .iterator => "iterator"

/-- The kind as the tag of a chunk. -/
def code : Kind → Nat
  | .text => 1
  | .picture => 2
  | .barcode => 3
  | .pageBreak => 4
  | .horizontalLine => 5
  | .row => 6
  | .sectionRef => 7
  | .iterator => 8

/-- The names of the texts that an item of the kind takes from a map. -/
def textNames : Kind → List String
  | .text => ["text", "align", "style"]
  | .picture => ["url"]
  | .barcode => ["code", "barcode_type"]
  | .sectionRef => ["ref"]
  | .iterator => ["path"]
  | .pageBreak | .horizontalLine | .row => []

def ofType? (type : Value) : Option Kind := all.find? fun k => type.isText k.name

def ofCode? (code : Nat) : Option Kind := all.find? fun k => k.code = code

theorem ofCode?_code (k : Kind) : ofCode? k.code = some k := by cases k <;> rfl

end Kind

inductive Item where
  | text (text align : String) (style : Option String) (flex : Option Nat)
  | picture (url : String) (flex : Option Nat)
  | barcode (code barcodeType : String) (flex : Option Nat)
  | pageBreak
  | horizontalLine
  | row (children : List Item) (flex : Option Nat)
  | sectionRef (ref : String) (flex : Option Nat)
  | iterator (path : String) (rows : List Item) (conditions : Option Value) (flex : Option Nat)

namespace Item

inductive Error where
  | notMap
  | notList
  | unsupportedType (type : Value)
  | flex (e : Varint.WriteError)
  | flexText (s : String)
  | flexTooLong (digits : Nat)
  | flexNotANumber
  | flexInfinite
  | flexNoNumber
  /-- A text, the conditions or an unknown type cannot be written. -/
  | unwritable (e : Unwritable)

def Error.message : Error → String
  | .unsupportedType type => "Unsupported element type: " ++ type.plain
  | .flex e => e.message
  | .flexText s =>
    "invalid literal for int() with base 10: "
      ++ String.ofList ((Text.Quoted.quote s.toList).take 200)
  | .flexTooLong digits => Number.tooLongMessage digits
  | .flexNotANumber => "cannot convert float NaN to integer"
  | .unwritable e => e.message
  | .notMap | .notList | .flexInfinite | .flexNoNumber => ""

/-- The whole number that a value stands for; a fraction is cut off. -/
def wholeOf : Value → Except Error Int
  | .int n => .ok n
  | .bool b => .ok (if b then 1 else 0)
  | .double .nan => .error .flexNotANumber
  | .double d =>
    match d.truncate? with
    | some n => .ok n
    | none => .error .flexInfinite
  | .text s | .unresolved s =>
    match Number.readInt s.toList with
    | .ok n => .ok n
    | .error (.tooLong digits) => .error (.flexTooLong digits)
    | .error .malformed => .error (.flexText s)
  | _ => .error .flexNoNumber

def flexOf (members : Members) : Except Error (Option Nat) :=
  match Value.getOrNull "flex" members with
  | .null => .ok none
  | v => do
    let n ← wholeOf v
    if n < 0 then throw (.flex (Varint.refusal n)) else return some n.toNat

/-- The text under a name; it is empty if the name is absent. -/
def textUnder (name : String) (members : Members) : String :=
  ((Members.get? name members).getD (.text "")).plain

/-- The text under a name, if the value does not count as empty. -/
def textUnder? (name : String) (members : Members) : Option String :=
  let v := Value.getOrNull name members
  if v.truthy then some v.plain else none

/-- Refuses a map if a text that an item of the kind takes from it cannot be written. -/
def checkTexts (kind : Kind) (members : Members) : Except Error Unit :=
  if kind.textNames.all fun name => (Value.getOrNull name members).fits then .ok ()
  else .error (.unwritable .tooLong)

/-- The conditions of an iterator, which have to be written as JSON. -/
def conditionsOf (members : Members) : Except Error (Option Value) :=
  match Value.getOrNull "conditions" members with
  | .null => .ok none
  | v =>
    match Json.fault? true v with
    | none => .ok (some v)
    | some e => .error (.unwritable e)

/-- The refusal of a type that is none. -/
def unsupported (type : Value) : Error :=
  if type.fits then .unsupportedType type else .unwritable .tooLong

/-- The items of a value that is no list: none if it is empty, and otherwise a failure, for what
going through it meets first is no item. -/
def ofNoList (v : Value) : Except Error (List Item) :=
  match v.walk? with
  | none => .error .notList
  | some [] => .ok []
  | some (_ :: _) => .error .notMap

/-- The item of a kind, from the members of a map and the items under their names. -/
def ofKind (kind : Kind) (members : Members) (inner : String → Except Error (List Item)) :
    Except Error Item := do
  checkTexts kind members
  match kind with
  | .text =>
    let flex ← flexOf members
    return .text (textUnder "text" members) ((textUnder? "align" members).getD "left")
      (textUnder? "style" members) flex
  | .picture =>
    let flex ← flexOf members
    return .picture (textUnder "url" members) flex
  | .barcode =>
    let flex ← flexOf members
    return .barcode (textUnder "code" members) ((textUnder? "barcode_type" members).getD "") flex
  | .pageBreak => return .pageBreak
  | .horizontalLine => return .horizontalLine
  | .row =>
    let children ← inner "children"
    let flex ← flexOf members
    return .row children flex
  | .sectionRef =>
    let flex ← flexOf members
    return .sectionRef (textUnder "ref" members) flex
  | .iterator =>
    let rows ← inner "rows"
    let conditions ← conditionsOf members
    let flex ← flexOf members
    return .iterator (textUnder "path" members) rows conditions flex

mutual
def ofValue : Value → Except Error Item
  | .map members =>
    let type := Value.getOrNull "type" members
    match Kind.ofType? type with
    | none => .error (unsupported type)
    | some kind => ofKind kind members fun name => listUnder name members
  | _ => .error .notMap

/-- The items under a name; there are none if the name is absent or its value counts as empty. -/
def listUnder (name : String) : List (Key × Value) → Except Error (List Item)
  | [] => .ok []
  | (key, v) :: rest =>
    if key = .text name then if v.truthy then listOf v else .ok [] else listUnder name rest

def listOf : Value → Except Error (List Item)
  | .list items => ofItems items
  | .tuple items => ofItems items
  | v => ofNoList v

/-- Brings maps into the form that is encoded, in order, up to the first that has none. -/
def ofItems : List Value → Except Error (List Item)
  | [] => .ok []
  | v :: vs => do
    let item ← ofValue v
    let items ← ofItems vs
    return item :: items
end

def optional (name : String) : Option Value → Members
  | none => []
  | some v => [(.text name, v)]

def flexMember (flex : Option Nat) : Members := optional "flex" (flex.map fun n => .int n)

mutual
def members : Item → Members
  | .text t align style flex =>
    [(.text "type", .text "text"), (.text "text", .text t), (.text "align", .text align)]
      ++ optional "style" (style.map .text) ++ flexMember flex
  | .picture url flex =>
    [(.text "type", .text "picture"), (.text "url", .text url)] ++ flexMember flex
  | .barcode code barcodeType flex =>
    [(.text "type", .text "barcode"), (.text "code", .text code),
      (.text "barcode_type", .text barcodeType)] ++ flexMember flex
  | .pageBreak => [(.text "type", .text "pagebreak")]
  | .horizontalLine => [(.text "type", .text "horizontalline")]
  | .row children flex =>
    [(.text "type", .text "row"), (.text "children", .list (toValues children))]
      ++ flexMember flex
  | .sectionRef ref flex =>
    [(.text "type", .text "sectionref"), (.text "ref", .text ref)] ++ flexMember flex
  | .iterator path rows conditions flex =>
    [(.text "type", .text "iterator"), (.text "path", .text path),
      (.text "rows", .list (toValues rows))] ++ optional "conditions" conditions ++ flexMember flex

def toValues : List Item → List Value
  | [] => []
  | item :: items => .map item.members :: toValues items
end

def toValue (item : Item) : Value := .map item.members

end Item
end Receipt.Codec
