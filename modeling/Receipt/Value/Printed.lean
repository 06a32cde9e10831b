import Receipt.Json.Writer

/-!
# Values as receipt text

A receipt prints a value the way the data was written: nothing for null, whole numbers without a
point, list items with commas between, and a map as compact JSON. `printed` is that text, and `print`
gives it of the values that can be printed: no whole number in them has too many digits, and the maps
in them have no key that JSON does not know.
-/
namespace Receipt.Value

/-- A number of a receipt: whole ones without a point. -/
def printedNumber (d : Double) : String :=
  match d.whole? with
  | some n => toString n
  | none => Json.number d

mutual
/-- The text that a receipt shows for the value. -/
def printed : Value → String
  | .null | .missing => ""
  | .bool b => Json.boolText b
  | .int n => toString n
  | .double d => printedNumber d
  | .text s => s
  | .unresolved s => s
  | .date d => d.text
  | .moment m => m.text
  | .list items => joined "," (printedItems items)
  | .tuple items => joined "," (printedItems items)
  | .map members => Json.write .compact (.map members)

def printedItems : List Value → List String
  | [] => []
  | v :: vs => v.printed :: printedItems vs
end

mutual
/-- What keeps a value from being printed, the first in order. -/
def printFault? : Value → Option Unwritable
  | .int n => if Number.fits n then none else some .tooLong
  | .list items => itemsPrintFault? items
  | .tuple items => itemsPrintFault? items
  | .map members => Json.membersFault? false members
  | _ => none

def itemsPrintFault? : List Value → Option Unwritable
  | [] => none
  | v :: vs => v.printFault?.or (itemsPrintFault? vs)
end

/-- The text that a receipt shows for the value, if it can be printed. -/
def print (v : Value) : Except Unwritable String :=
  match v.printFault? with
  | none => .ok v.printed
  | some e => .error e

end Receipt.Value
