import Receipt.Codec.Chunk
import Receipt.Codec.Item
import Receipt.Json.Reader
import Receipt.Text.Utf8

/-!
# The binary format

An encoded receipt is two letters, a version and a list of chunks, one for each item. The tag of a
chunk is the kind of the item and its body is a list of fields, which are chunks again; page breaks
and lines have no body. A list of items inside an item is the body of a field.

Reading skips chunks of an unknown kind and chunks whose body cannot be read.

Items may nest to any depth, written and read: where a machine runs out of room for nested calls
depends on the calls around them and is left out of the model.
-/
namespace Receipt.Codec

inductive Field where
  | text | align | style | flex | url | code | barcodeType | ref | path | conditions | children
  | rows
  deriving DecidableEq, Repr

def Field.tag : Field → Nat
  | .text => 1
  | .align => 2
  | .style => 3
  | .flex => 4
  | .url => 5
  | .code => 6
  | .barcodeType => 7
  | .ref => 8
  | .path => 9
  | .conditions => 10
  | .children => 11
  | .rows => 12

def textField (field : Field) (s : String) : Chunk := ⟨field.tag, Text.Utf8.ofString s⟩

def flexFields : Option Nat → List Chunk
  | none => []
  | some n => [⟨Field.flex.tag, Varint.encode n⟩]

def styleFields : Option String → List Chunk
  | none => []
  | some s => [textField .style s]

def conditionsFields : Option Value → List Chunk
  | none => []
  | some v => [textField .conditions (Json.write .line v)]

namespace Item

mutual
def chunk : Item → Chunk
  | .text t align style flex =>
    ⟨Kind.text.code, Chunk.encodeList
      ([textField .text t, textField .align align] ++ styleFields style ++ flexFields flex)⟩
  | .picture url flex =>
    ⟨Kind.picture.code, Chunk.encodeList (textField .url url :: flexFields flex)⟩
  | .barcode code barcodeType flex =>
    ⟨Kind.barcode.code, Chunk.encodeList
      ([textField .code code, textField .barcodeType barcodeType] ++ flexFields flex)⟩
  | .pageBreak => ⟨Kind.pageBreak.code, []⟩
  | .horizontalLine => ⟨Kind.horizontalLine.code, []⟩
  | .row children flex =>
    ⟨Kind.row.code, Chunk.encodeList
      (⟨Field.children.tag, Chunk.encodeList (chunks children)⟩ :: flexFields flex)⟩
  | .sectionRef ref flex =>
    ⟨Kind.sectionRef.code, Chunk.encodeList (textField .ref ref :: flexFields flex)⟩
  | .iterator path rows conditions flex =>
    ⟨Kind.iterator.code, Chunk.encodeList
      ([textField .path path, ⟨Field.rows.tag, Chunk.encodeList (chunks rows)⟩]
        ++ conditionsFields conditions ++ flexFields flex)⟩

def chunks : List Item → List Chunk
  | [] => []
  | item :: items => item.chunk :: chunks items
end

end Item

def magic : List UInt8 := [0x52, 0x43]

def version : UInt8 := 1

def encode (items : List Item) : List UInt8 :=
  magic ++ version :: Chunk.encodeList (Item.chunks items)

inductive FormatError where
  | tooShort
  | wrongMagic
  | wrongVersion (version : UInt8)
  | number (e : Varint.Error)
  deriving DecidableEq, Repr

def FormatError.message : FormatError → String
  | .tooShort => "Data too short for header"
  | .wrongMagic => "Invalid magic bytes"
  | .wrongVersion v => "Unsupported version: " ++ toString v.toNat
  | .number e => e.message

/-- The text in a field; it is empty if the field is absent. -/
def fieldText (field : Field) (fields : List Chunk) : String :=
  String.ofList (Text.Utf8.decodeLossy ((Chunk.find? field.tag fields).getD []))

/-- The share of the width in the fields; none if its number cannot be read. -/
def fieldFlex? (fields : List Chunk) : Option (Option Nat) :=
  match Chunk.find? Field.flex.tag fields with
  | none => some none
  | some body =>
    match Varint.read body with
    | .ok (n, _) => some (some n)
    | .error _ => none

def fieldText? (field : Field) (fields : List Chunk) : Option String :=
  (Chunk.find? field.tag fields).map fun _ => fieldText field fields

/-- The conditions in the fields; none if they cannot be read. -/
def fieldConditions? (fields : List Chunk) : Option (Option Value) :=
  match fieldText? .conditions fields with
  | none => some none
  | some s =>
    match Json.read? s.toList with
    | .ok v => some (some v)
    | .error _ => none

/-- The alignment in the fields; an empty one is the left. -/
def fieldAlign (fields : List Chunk) : String :=
  match fieldText .align fields with
  | "" => "left"
  | s => s

def nested? (kind : Kind) (fields : List Chunk) : Option (List UInt8) :=
  match kind with
  | .row => Chunk.find? Field.children.tag fields
  | .iterator => Chunk.find? Field.rows.tag fields
  | _ => none

theorem nested?_lt {kind : Kind} {body bytes : List UInt8} {fields : List Chunk}
    (h : Chunk.fields body = .ok fields) (hn : nested? kind fields = some bytes) :
    bytes.length < body.length := by
  unfold nested? at hn
  split at hn
  · exact Chunk.find?_fields_lt h hn
  · exact Chunk.find?_fields_lt h hn
  · simp at hn

/-- The item of a kind with the given fields, and with the given items inside; none if a field
cannot be read. -/
def Item.ofFields? (kind : Kind) (fields : List Chunk) (items : List Item) : Option Item := do
  let flex ← fieldFlex? fields
  match kind with
  | .text =>
    return .text (fieldText .text fields) (fieldAlign fields) (fieldText? .style fields) flex
  | .picture => return .picture (fieldText .url fields) flex
  | .barcode => return .barcode (fieldText .code fields) (fieldText .barcodeType fields) flex
  | .pageBreak => return .pageBreak
  | .horizontalLine => return .horizontalLine
  | .row => return .row items flex
  | .sectionRef => return .sectionRef (fieldText .ref fields) flex
  | .iterator =>
    let conditions ← fieldConditions? fields
    return .iterator (fieldText .path fields) items conditions flex

mutual
def decodeItems (count : Nat) (bytes : List UInt8) : Except Varint.Error (List Item) :=
  match count with
  | 0 => .ok []
  | count + 1 =>
    match _h : Chunk.read bytes with
    | .error e => .error e
    | .ok (c, rest) =>
      match decodeItems count rest with
      | .error e => .error e
      | .ok items => .ok ((decodeBody c.tag c.body).toList ++ items)
termination_by bytes.length
decreasing_by all_goals have := Chunk.read_length _h; omega

def decodeList (bytes : List UInt8) : Except Varint.Error (List Item) :=
  match _h : Varint.read bytes with
  | .error e => .error e
  | .ok (count, rest) => decodeItems count rest
termination_by bytes.length
decreasing_by exact Varint.read_length_lt _h

/-- Reads the body of a chunk; none if its kind is unknown or the body cannot be read. -/
def decodeBody (code : Nat) (body : List UInt8) : Option Item :=
  match Kind.ofCode? code with
  | none => none
  | some .pageBreak => some .pageBreak
  | some .horizontalLine => some .horizontalLine
  | some kind =>
    match _h : Chunk.fields body with
    | .error _ => none
    | .ok fields =>
      match _hn : nested? kind fields with
      | none => Item.ofFields? kind fields []
      | some bytes =>
        match decodeList bytes with
        | .error _ => none
        | .ok items => Item.ofFields? kind fields items
termination_by body.length
decreasing_by exact nested?_lt _h _hn
end

def decode (bytes : List UInt8) : Except FormatError (List Item) :=
  match bytes with
  | m :: n :: v :: rest =>
    if [m, n] ≠ magic then .error .wrongMagic
    else if v ≠ version then .error (.wrongVersion v)
    else (decodeList rest).mapError .number
  | _ => .error .tooShort

end Receipt.Codec
