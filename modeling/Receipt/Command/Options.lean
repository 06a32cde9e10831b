import Receipt.Command.Run

/-!
# Command lines

A command line is options before a command, the command's name, and its own options. Each option
has a long name; its value is the next word or follows an equals sign, and the last of several
values counts. A word that is no option has no place, and asking for help wins over values that are
wrong, but not over options that are. `run` runs the request that a command line makes.
-/
namespace Receipt.Command

/-- An option by its name, and whether it takes a value. -/
structure Flag where
  name : String
  hasValue : Bool

/-- A command line that was not understood, or that asks for help. -/
inductive Stop where
  | usage
  | help
  deriving DecidableEq, Repr

/-- The values of options by their names, and the words that are no options. -/
structure Arguments where
  values : List (String × String)
  words : List String

namespace Arguments

/-- The last value of an option. -/
def get? (name : String) (a : Arguments) : Option String :=
  (a.values.reverse.find? fun v => v.1 = name).map Prod.snd

def has (name : String) (a : Arguments) : Bool := (a.get? name).isSome

def withValue (name value : String) (a : Arguments) : Arguments :=
  ⟨(name, value) :: a.values, a.words⟩

def withWord (word : String) (a : Arguments) : Arguments := ⟨a.values, word :: a.words⟩

def isOption (word : String) : Bool :=
  match word.toList with
  | '-' :: _ :: _ => true
  | _ => false

def cutWord (word : String) : String × Option String :=
  let (name, value) := Text.cutAt '=' word.toList
  (String.ofList name, value.map String.ofList)

/-- Reads options and words; if options come first, the first word ends them. -/
def read (options : List Flag) (optionsFirst : Bool) : List String → Except Stop Arguments
  | [] => .ok ⟨[], []⟩
  | "--" :: rest => .ok ⟨[], rest⟩
  | [word] =>
    if isOption word then
      let (name, value) := cutWord word
      match options.find? (fun o => o.name = name), value with
      | some o, some v => if o.hasValue then .ok ⟨[(name, v)], []⟩ else .error .usage
      | some o, none => if o.hasValue then .error .usage else .ok ⟨[(name, "")], []⟩
      | none, _ => .error .usage
    else .ok ⟨[], [word]⟩
  | word :: next :: rest =>
    if isOption word then
      let (name, value) := cutWord word
      match options.find? (fun o => o.name = name), value with
      | some o, some v =>
        if o.hasValue then (read options optionsFirst (next :: rest)).map (withValue name v)
        else .error .usage
      | some o, none =>
        if o.hasValue then (read options optionsFirst rest).map (withValue name next)
        else (read options optionsFirst (next :: rest)).map (withValue name "")
      | none, _ => .error .usage
    else if optionsFirst then .ok ⟨[], word :: next :: rest⟩
    else (read options optionsFirst (next :: rest)).map (withWord word)

end Arguments

namespace Request

/-- The path in an option that has to be given and has to be there. -/
def present (d : Disk) (a : Arguments) (name : String) : Except Stop Path :=
  match a.get? name with
  | none => .error .usage
  | some s => if s ≠ "" ∧ d.holds (.ofText s) then .ok (.ofText s) else .error .usage

/-- The path in an option that has to be there if it is given. -/
def presentIfGiven (d : Disk) (a : Arguments) (name : String) : Except Stop (Option Path) :=
  match a.get? name with
  | none => .ok none
  | some _ => (present d a name).map some

def required (a : Arguments) (name : String) : Except Stop Path :=
  match a.get? name with
  | none => .error .usage
  | some s => .ok (.ofText s)

def format (a : Arguments) : Except Stop Format :=
  match a.get? "--format" with
  | none => .ok .json
  | some s =>
    if s = "json" then .ok .json else if s = "base64" then .ok .base64 else .error .usage

def emptyValues (a : Arguments) : Except Stop (Option Template.EmptyPolicy) :=
  match a.get? "--empty-values" with
  | none => .ok none
  | some s =>
    if s = "keep-token" then .ok (some .keepToken)
    else if s = "empty" then .ok (some .printNothing)
    else .error .usage

def workers (a : Arguments) : Except Stop Int :=
  match a.get? "--max-workers" with
  | none => .ok 4
  | some s =>
    match Number.readInt s.toList with
    | .ok n => .ok n
    | .error _ => .error .usage

/-- The name of the section, which has a standard one. -/
def sectionName (a : Arguments) : String := (a.get? "--section").getD "StoreCopy"

/-- The arguments of a command without words, unless help is asked for. -/
def arguments (names : List String) (words : List String) : Except Stop Arguments := do
  let options := ⟨"--help", false⟩ :: names.map fun name => (⟨name, true⟩ : Flag)
  let a ← Arguments.read options false words
  if a.has "--help" then throw .help
  if a.words ≠ [] then throw .usage
  return a

def readBuild (d : Disk) (words : List String) : Except Stop Request := do
  let a ← arguments ["--config", "--data", "--section", "--format", "--out", "--settings",
    "--empty-values"] words
  return .build ⟨← present d a "--config", ← present d a "--data", sectionName a, ← format a,
    (a.get? "--out").map Path.ofText, ← presentIfGiven d a "--settings", ← emptyValues a⟩

def readSections (d : Disk) (words : List String) : Except Stop Request := do
  let a ← arguments ["--config"] words
  return .sections (← present d a "--config")

def readBatch (d : Disk) (words : List String) : Except Stop Request := do
  let a ← arguments ["--config", "--in", "--section", "--out", "--format", "--settings",
    "--max-workers"] words
  let input ← present d a "--in"
  if !d.isDirectory input then throw .usage
  return .batch ⟨← present d a "--config", input, sectionName a, ← required a "--out",
    ← format a, ← presentIfGiven d a "--settings", ← workers a⟩

def readDecode (d : Disk) (words : List String) : Except Stop Request := do
  let a ← arguments ["--in"] words
  return .decode (← present d a "--in")

def read (d : Disk) (words : List String) : Except Stop Request := do
  if words = [] then throw .help
  let a ← Arguments.read [⟨"--help", false⟩, ⟨"--debug", false⟩] true words
  if a.has "--help" then throw .help
  match a.words with
  | "build" :: rest => readBuild d rest
  | "sections" :: rest => readSections d rest
  | "batch" :: rest => readBatch d rest
  | "decode" :: rest => readDecode d rest
  | _ => throw .usage

end Request

def run [Host] (d : Disk) (words : List String) : Report × Disk :=
  match Request.read d words with
  | .ok request => runRequest d request
  | .error .usage => (⟨[], [], .usage⟩, d)
  | .error .help => (⟨[], [], .help⟩, d)

end Receipt.Command
