import Receipt.Command.Disk
import Receipt.Host
import Receipt.Json.Reader
import Receipt.Text.Utf8

/-!
# Documents

A document is a file that holds one value: JSON if its name says so, and YAML otherwise, which the
host reads. The text of JSON is UTF-8, and every kind of line break counts as one.
-/
namespace Receipt

theorem Text.Utf8.Error.message_ne_empty (e : Error) : e.message ≠ "" :=
  append_ne_empty_left (append_ne_empty_right _ (by decide)) _

namespace Command

inductive DocumentError where
  | file (e : FileError)
  | encoding (e : Text.Utf8.Error)
  | json (e : Json.Error)
  | yaml (e : ReadFailure)

def DocumentError.message : DocumentError → String
  | .file e => e.message
  | .encoding e => e.message
  | .json e => e.message
  | .yaml e => e.message

namespace Document

/-- Makes one character of every line break. -/
def unifyBreaks : List Char → List Char
  | '\r' :: '\n' :: cs => '\n' :: unifyBreaks cs
  | '\r' :: cs => '\n' :: unifyBreaks cs
  | c :: cs => c :: unifyBreaks cs
  | [] => []

def text (bytes : List UInt8) : Except Text.Utf8.Error (List Char) :=
  (Text.Utf8.decode? bytes).map unifyBreaks

def isJson (p : Path) : Bool := p.suffix.toList.map Char.toLower = ".json".toList

def readJson (bytes : List UInt8) : Except DocumentError Value :=
  match text bytes with
  | .error e => .error (.encoding e)
  | .ok cs => (Json.read? cs).mapError .json

variable [Host]

def readYaml (p : Path) (bytes : List UInt8) : Except DocumentError Value :=
  (Host.readYaml p.text bytes).mapError .yaml

/-- Loads a document that holds YAML whatever its name is. -/
def loadYaml (d : Disk) (p : Path) : Except DocumentError Value :=
  match d.read p with
  | .error e => .error (.file e)
  | .ok bytes => readYaml p bytes

def load (d : Disk) (p : Path) : Except DocumentError Value :=
  match d.read p with
  | .error e => .error (.file e)
  | .ok bytes => if isJson p then readJson bytes else readYaml p bytes

end Document
end Command
end Receipt
