import Receipt.Text.Hex
import Receipt.Text.Printable

/-!
# Quoted text

A text quoted for display stands between single quotes, or between double quotes when it holds a
single quote and no double quote. The quote in use, the backslash and everything that is not
printable is escaped, so the quoted form is one line.
-/
namespace Receipt.Text.Quoted

/-- The quote that surrounds a text. -/
def mark (cs : List Char) : Char :=
  if cs.contains '\'' && !cs.contains '"' then '"' else '\''

/-- One character between quotes of the given kind. -/
def escape (quote c : Char) : List Char :=
  if c = quote ∨ c = '\\' then ['\\', c]
  else if c = '\t' then ['\\', 't']
  else if c = '\n' then ['\\', 'n']
  else if c = '\r' then ['\\', 'r']
  else if isPrintable c then [c]
  else if c.toNat < 0x100 then '\\' :: 'x' :: Hex.digits 2 c.toNat
  else if c.toNat < 0x10000 then '\\' :: 'u' :: Hex.digits 4 c.toNat
  else '\\' :: 'U' :: Hex.digits 8 c.toNat

def quote (cs : List Char) : List Char :=
  mark cs :: cs.flatMap (escape (mark cs)) ++ [mark cs]

def ofString (s : String) : String := String.ofList (quote s.toList)

end Receipt.Text.Quoted
