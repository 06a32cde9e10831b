import Receipt.Compose

/-!
# Building a section

Building composes the section of a name. A name that is not declared gives no elements and a
warning.
-/
namespace Receipt

/-- Composed elements, and what was noticed on the way. -/
structure Built where
  elements : List Element
  warnings : List String

/-- Why building fails: the registry cannot be read, or the section cannot be composed. -/
inductive BuildError where
  | layout (e : Layout.Error)
  | composition (e : Compose.Error)

def BuildError.message : BuildError → String
  | .layout e => e.message
  | .composition e => e.message

variable [Host]

def build (settings : Settings) (registry : Registry) (name : String) (data : Value) :
    Except Compose.Error Built :=
  match registry.get? name with
  | none => .ok ⟨[], ["Receipt config not found for key: " ++ name]⟩
  | some layout => do
    let elements ← Compose.Env.compose ⟨settings, registry⟩ layout data []
    return ⟨elements, []⟩

/-- Builds the section of a name from a registry that has still to be read. -/
def buildFrom (settings : Settings) (registry : Value) (name : String) (data : Value) :
    Except BuildError Built :=
  match Registry.ofValue registry with
  | .error e => .error (.layout e)
  | .ok registry => (build settings registry name data).mapError .composition

end Receipt
