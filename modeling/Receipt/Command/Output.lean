import Receipt.Command.Failure
import Receipt.Command.Request

/-!
# What commands share

Reading the files that commands name, and writing elements in the form that was asked for.
-/
namespace Receipt.Command

section load

variable [Host]

/-- Settings from a file, or the standard ones; the policy may be given beside them. -/
def loadSettings (d : Disk) (file : Option Path) (policy : Option Template.EmptyPolicy) :
    Except Failure Settings := do
  let settings ← match file with
    | none => pure Settings.standard
    | some p => do
      let v ← (Document.loadYaml d p).mapError .document
      let (settings, _) ← (Settings.ofValue v).mapError .settings
      pure settings
  match policy with
  | none => return settings
  | some policy => return { settings with policy := policy }

/-- A registry from a file; a file that holds nothing declares nothing. -/
def loadRegistry (d : Disk) (p : Path) : Except Failure Registry := do
  let v ← (Document.load d p).mapError .document
  (Registry.ofValue (if v.truthy then v else .map [])).mapError .layout

def loadData (d : Disk) (p : Path) : Except Failure Value := (Document.load d p).mapError .document

end load

def prettyText (vs : List Value) : Except Unwritable String := Json.render .pretty (.list vs)

def render (format : Format) (es : List Element) : Except Failure String :=
  match format with
  | .base64 => ((Codec.encodeElements es).map Codec.toText).mapError .item
  | .json => (prettyText (Element.toValues es)).mapError .unwritable

/-- How a command ended. -/
inductive Ending where
  | success
  /-- The command reported a failure. -/
  | failure
  /-- The command line was not understood. -/
  | usage
  /-- The command asked for help only. -/
  | help
  /-- A failure that the command does not report ended it. -/
  | abrupt (e : Failure)

def Ending.status : Ending → Nat
  | .success | .help => 0
  | .failure | .abrupt _ => 1
  | .usage => 2

structure Report where
  output : List String
  errors : List String
  ending : Ending

namespace Report

def text (lines : List String) : String := String.join (lines.map (· ++ "\n"))

/-- The end of a command by a failure, after the given error lines. -/
def failed (errors : List String) (e : Failure) : Report :=
  if e.reported then ⟨[], errors ++ ["Error: " ++ e.message], .failure⟩
  else ⟨[], errors, .abrupt e⟩

end Report
end Receipt.Command
