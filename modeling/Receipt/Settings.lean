import Receipt.Template.Expand

/-!
# Settings of composition

Settings say what an empty placeholder prints, how moments are printed, whether references may run
in a circle and how deep rows may nest. They are read from a map; names that are not settings are
ignored and reported.
-/
namespace Receipt

/-- How many levels below the first rows may be entered. -/
inductive DepthLimit where
  | count (levels : Nat)
  /-- A bare yes, which is one level. -/
  | yes
  | double (levels : Double)
  deriving DecidableEq, Repr

namespace DepthLimit

/-- The deepest level allowed; none if every level is. -/
def bound : DepthLimit → Option Nat
  | .count n => some n
  | .yes => some 1
  | .double d => d.floor?.map Int.toNat

def toValue : DepthLimit → Value
  | .count n => .int n
  | .yes => .bool true
  | .double d => .double d

end DepthLimit

structure Settings where
  policy : Template.EmptyPolicy
  /-- The pattern that moments are printed by, which should be a text. -/
  datetimeFormat : Value
  /-- References are guarded if this holds. -/
  detectCycles : Value
  maxDepth : Option DepthLimit

namespace Settings

def standard : Settings := ⟨.keepToken, .text "%x %X", .bool true, some (.count 64)⟩

/-- Whether references are guarded against circles. -/
def guarded (s : Settings) : Bool := s.detectCycles.truthy

/-- The deepest level allowed, and the limit that says so; none if every level is allowed. -/
def limit? (s : Settings) : Option (Nat × DepthLimit) :=
  s.maxDepth.bind fun limit => limit.bound.map fun deepest => (deepest, limit)

/-- What templates are expanded with under the settings. -/
def expander (s : Settings) : Template.Expander :=
  ⟨Template.Operators.builtin s.datetimeFormat, s.policy⟩

inductive Error where
  | notMap
  /-- A name that is no text cannot be reported. -/
  | nameNotText
  | unknownPolicy (v : Value)
  | depthNotPositive (v : Value)
  | depthNotNumber

def Error.message : Error → String
  | .notMap => "Engine settings must be a mapping"
  | .nameNotText | .depthNotNumber => ""
  | .unknownPolicy v =>
    if v.fits then v.literal ++ " is not a valid EmptyValuePolicy" else Number.unwritableMessage
  | .depthNotPositive v =>
    if v.fits then "max_depth must be positive, got " ++ v.plain else Number.unwritableMessage

def policyName : Template.EmptyPolicy → String
  | .keepToken => "keep_token"
  | .printNothing => "empty_string"

def readPolicy (v : Value) : Except Error Template.EmptyPolicy :=
  if v.isText (policyName .keepToken) then .ok .keepToken
  else if v.isText (policyName .printNothing) then .ok .printNothing
  else .error (.unknownPolicy v)

def readDepth (v : Value) : Except Error (Option DepthLimit) :=
  match v with
  | .null => .ok none
  | .int n => if n < 1 then .error (.depthNotPositive v) else .ok (some (.count n.toNat))
  | .bool b => if b then .ok (some .yes) else .error (.depthNotPositive v)
  | .double d =>
    if d.belowOne then .error (.depthNotPositive v) else .ok (some (.double d))
  | _ => .error .depthNotNumber

def names : List String := ["empty_value_policy", "datetime_format", "detect_cycles", "max_depth"]

/-- The names of members that are no settings, in the order of their characters. -/
def unknownNames (members : Members) : Except Error (List String) := do
  let unknown := (members.map Prod.fst).filter fun key => !names.any fun n => key == .text n
  let texts ← unknown.mapM fun key =>
    match key with
    | .text s => .ok s
    | _ => .error .nameNotText
  return texts.mergeSort fun a b => decide (a ≤ b)

/-- The report of names that are no settings. -/
def unknownReport : List String → List String
  | [] => []
  | unknown => ["Ignoring unknown engine settings: " ++ joined ", " unknown]

/-- Reads the setting of a name, or keeps the standard one. -/
def readMember {α : Type} (members : Members) (name : String) (standard : α)
    (read : Value → Except Error α) : Except Error α :=
  match members.get? name with
  | none => .ok standard
  | some v => read v

def ofMembers (members : Members) : Except Error (Settings × List String) := do
  let unknown ← unknownNames members
  let policy ← readMember members "empty_value_policy" standard.policy readPolicy
  let format ← readMember members "datetime_format" standard.datetimeFormat .ok
  let cycles ← readMember members "detect_cycles" standard.detectCycles .ok
  let depth ← readMember members "max_depth" standard.maxDepth readDepth
  return (⟨policy, format, cycles, depth⟩, unknownReport unknown)

/-- Reads settings, and reports what it ignores; a value that counts as empty is no settings. -/
def ofValue (v : Value) : Except Error (Settings × List String) :=
  if !v.truthy then .ok (standard, [])
  else match v with
    | .map members => ofMembers members
    | _ => .error .notMap

end Settings
end Receipt
