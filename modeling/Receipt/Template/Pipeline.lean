import Receipt.Template.Operator

/-!
# Pipelines of operators

A suffix such as `| default:'-' | fit:8` names operations in order. A name finds its operator in a
set of operators, which keeps the order in which names were first added; a name that is not in the
set changes nothing.
-/
namespace Receipt.Template

open Text

/-- An operator's name and its argument, if a colon gave one. -/
abbrev Operation := String × Option String

/-- Reads what stands between two bars. -/
def readOperation? (chunk : List Char) : Option Operation :=
  match trim chunk with
  | [] => none
  | cs =>
    let (name, arg) := cutAt ':' cs
    some (String.ofList (trim name), arg.map String.ofList)

def parseOperations (suffix : List Char) : List Operation :=
  (splitOn '|' suffix).filterMap readOperation?

/-- Operators under their names, in the order of first adding. -/
abbrev Operators := List (String × Operator)

/-- What may be offered to a set of operators: an operator, or something that is none. -/
inductive Candidate where
  | operator (name : String) (op : Operator)
  | other

/-- The refusal of a candidate that is no operator. -/
inductive NotAnOperator where
  | mk
  deriving DecidableEq, Repr

def NotAnOperator.message (_ : NotAnOperator) : String := "Operator must inherit from BaseOperator"

namespace Operators

/-- The operators that every set starts with; dates are printed by the pattern. -/
def builtin (pattern : Value) : Operators :=
  [("default", .default), ("padLeft", .pad true), ("padRight", .pad false), ("fit", .fit),
    ("format", .format pattern)]

def get? (name : String) : Operators → Option Operator
  | [] => none
  | (n, op) :: rest => if n = name then some op else get? name rest

/-- Puts an operator under a name, in the name's old place if it has one. -/
def put (name : String) (op : Operator) : Operators → Operators
  | [] => [(name, op)]
  | entry :: rest =>
    if entry.1 = name then (name, op) :: rest else entry :: put name op rest

def add (ops : Operators) : Candidate → Except NotAnOperator Operators
  | .operator name op => .ok (ops.put name op)
  | .other => .error .mk

variable [Host]

def applyOne (ops : Operators) (v : Value) (operation : Operation) : Except Error Value :=
  match ops.get? operation.1 with
  | some op => op.apply v operation.2
  | none => .ok v

def run (ops : Operators) (v : Value) (operations : List Operation) : Except Error Value :=
  operations.foldlM ops.applyOne v

end Operators
end Receipt.Template
