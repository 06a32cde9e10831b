import Receipt.Template.Path
import Receipt.Template.Pipeline
import Receipt.Template.Token

/-!
# Expansion of templates

Every token is replaced by the printed value at its path, after its operators; a path that leads
nowhere stands for itself. What to print when nothing is left is a policy. Replaced text is not
looked at again.
-/
namespace Receipt.Template

/-- What a token becomes when its value prints as nothing. -/
inductive EmptyPolicy where
  /-- The token is printed as it is written. -/
  | keepToken
  | printNothing
  deriving DecidableEq, Repr

/-- What templates are expanded with. -/
structure Expander where
  operators : Operators
  policy : EmptyPolicy

/-- The value that a token starts from. -/
def startValue (data : Value) (path : String) : Value :=
  match resolve data path with
  | .missing => .unresolved path
  | v => v

namespace Expander

variable [Host]

def tokenText (x : Expander) (data : Value) (t : Token) : Except Error (List Char) := do
  let v ← x.operators.run (startValue data (String.ofList t.path)) (parseOperations t.suffix)
  let text := (← textOf v).toList
  return if text = [] ∧ x.policy = .keepToken then t.text else text

def pieceText (x : Expander) (data : Value) : Piece → Except Error (List Char)
  | .char c => .ok [c]
  | .token t => x.tokenText data t

/-- Joins the texts of pieces; the first failure ends it. -/
def piecesText (x : Expander) (data : Value) : List Piece → Except Error (List Char)
  | [] => .ok []
  | p :: ps => do
    let here ← x.pieceText data p
    let more ← x.piecesText data ps
    return here ++ more

def expandText (x : Expander) (data : Value) (cs : List Char) : Except Error (List Char) :=
  x.piecesText data (Piece.cut cs)

/-- Expands a template; one that is no text is printed first. -/
def expand (x : Expander) (template data : Value) : Except Error String := do
  let text ← textOf template
  (x.expandText data text.toList).map String.ofList

end Expander
end Receipt.Template
