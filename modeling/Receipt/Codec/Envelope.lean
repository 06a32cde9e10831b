import Receipt.Codec.Format
import Receipt.Element
import Receipt.Text.Base64

/-!
# Encoded receipts as text

An encoded receipt travels as base64 text. The functions here go between that text or its bytes and
maps or elements.
-/
namespace Receipt.Codec

def encodeValues (v : Value) : Except Item.Error (List UInt8) := (Item.listOf v).map encode

def encodeElements (es : List Element) : Except Item.Error (List UInt8) :=
  encodeValues (.list (Element.toValues es))

def decodeValues (bytes : List UInt8) : Except FormatError (List Value) :=
  (decode bytes).map Item.toValues

inductive TextError where
  | base64 (e : Text.Base64.Error)
  | format (e : FormatError)

def TextError.message : TextError → String
  | .base64 e => "Invalid base64 data: " ++ e.message
  | .format e => e.message

def toText (bytes : List UInt8) : String := String.ofList (Text.Base64.encode bytes)

def decodeText (s : String) : Except TextError (List Value) :=
  match Text.Base64.decodeText s with
  | .error e => .error (.base64 e)
  | .ok bytes => (decodeValues bytes).mapError .format

/-- Why there are no elements: the text or its bytes cannot be read, or a value in them is none. -/
inductive ElementsError where
  | text (e : TextError)
  | element (e : Element.Error)

def readElements : Except TextError (List Value) → Except ElementsError (List Element)
  | .error e => .error (.text e)
  | .ok vs => (Element.ofItems vs).mapError .element

def decodeElements (bytes : List UInt8) : Except ElementsError (List Element) :=
  readElements ((decodeValues bytes).mapError .format)

def decodeElementsText (s : String) : Except ElementsError (List Element) :=
  readElements (decodeText s)

/-- Whether text looks like an encoded receipt: base64 of bytes with the letters at the start. -/
def isEncoded (s : String) : Bool :=
  match s.toList with
  | '[' :: _ | '\x7b' :: _ => false
  | _ =>
    match Text.Base64.decodeText s with
    | .error _ => false
    | .ok bytes => 3 ≤ bytes.length && bytes.take 2 = magic

end Receipt.Codec
