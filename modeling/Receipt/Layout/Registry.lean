import Receipt.Layout.Row

/-!
# Layouts and their registry

A registry holds layouts under the names of sections, in the order of their declaration. A section
that is null counts as not declared.
-/
namespace Receipt

/-- A section: its rows, and its own name if it has one. -/
structure Layout where
  rows : List Row
  name : Option String

namespace Layout

/-- Reads a section: a list is its rows, and a map holds them under `rows`. -/
def ofValue (v : Value) (name : Option String) : Except Error Layout :=
  match v with
  | .list items => (Row.ofItems items).map (⟨·, name⟩)
  | .map members => (Row.listUnder "rows" members).map (⟨·, name⟩)
  | v => if v.truthy then .error .sectionNotMap else .ok ⟨[], name⟩

end Layout

/-- Sections under their names, in order. -/
abbrev Registry := List (Key × Layout)

namespace Registry

def get? (name : String) : Registry → Option Layout
  | [] => none
  | (key, layout) :: rest => if key = .text name then some layout else get? name rest

/-- Puts a section under a name, in the name's old place if it has one. -/
def put (name : String) (layout : Layout) : Registry → Registry
  | [] => [(.text name, layout)]
  | entry :: rest =>
    if entry.1 = .text name then (.text name, layout) :: rest else entry :: put name layout rest

/-- The name that a section takes from its key; a key that is no text gives none. -/
def keyName : Key → Option String
  | .text s => some s
  | _ => none

def ofMembers : Members → Except Layout.Error Registry
  | [] => .ok []
  | (key, .null) :: rest => do
    -- The key of a section that is left undeclared is told.
    let _ ← key.word.mapError Layout.Error.unwritable
    ofMembers rest
  | (key, v) :: rest => do
    let layout ← Layout.ofValue v (keyName key)
    let more ← ofMembers rest
    return (key, layout) :: more

def ofValue : Value → Except Layout.Error Registry
  | .map members => ofMembers members
  | _ => .error .registryNotMap

end Registry
end Receipt
