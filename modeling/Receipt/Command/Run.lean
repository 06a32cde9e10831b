import Receipt.Command.Batch

/-!
# Running commands

`runRequest` takes a request and a disk, and gives what is printed and the disk afterwards. The disk
changes only where an output is written.
-/
namespace Receipt.Command

/-- Writes rendered elements where they should go, or prints them. -/
def deliver (d : Disk) (out : Option Path) (count : Nat) (warnings : List String) (text : String) :
    Report × Disk :=
  match out with
  | none => (⟨[text], warnings, .success⟩, d)
  | some p =>
    match d.makeDirectory p.dropLast with
    | .error e => (.failed warnings (.file e), d)
    | .ok made =>
      match made.write p (Text.Utf8.ofString text) with
      | .error e => (.failed warnings (.file e), made)
      | .ok written =>
        (⟨[], warnings ++ ["Wrote " ++ toString count ++ " elements to " ++ p.text], .success⟩,
          written)

variable [Host]

/-- What building needs, from the files that the options name. -/
def buildFiles (d : Disk) (o : BuildOptions) : Except Failure Built := do
  let settings ← loadSettings d o.settings o.emptyValues
  let registry ← loadRegistry d o.config
  let data ← loadData d o.data
  (build settings registry o.name data).mapError .composition

def runBuild (d : Disk) (o : BuildOptions) : Report × Disk :=
  match buildFiles d o with
  | .error e => (.failed [] e, d)
  | .ok built =>
    let warnings := built.warnings.map ("Warning: " ++ ·)
    match render o.format built.elements with
    | .error e => (.failed warnings e, d)
    | .ok text => deliver d o.out built.elements.length warnings text

/-- A line for each section, up to the first whose key cannot be written. -/
def sectionLines : Registry → List String × Option Unwritable
  | [] => ([], none)
  | (key, layout) :: rest =>
    match key.word with
    | .error e => ([], some e)
    | .ok word =>
      let (lines, fault) := sectionLines rest
      ((word ++ " (" ++ toString layout.rows.length ++ " rows)") :: lines, fault)

def runSections (d : Disk) (config : Path) : Report :=
  match loadRegistry d config with
  | .error e => .failed [] e
  | .ok registry =>
    let (lines, fault) := sectionLines registry
    ⟨lines, [], fault.elim .success fun e => .abrupt (.unwritable e)⟩

def batchFiles (d : Disk) (o : BatchOptions) : Except Failure Batch := do
  let settings ← loadSettings d o.settings none
  let registry ← loadRegistry d o.config
  return ⟨registry, o.name, settings, o.workers, o.format⟩

def runBatch (d : Disk) (o : BatchOptions) : Report × Disk :=
  match batchFiles d o with
  | .error e => (.failed [] e, d)
  | .ok b =>
    match b.composeBatch .zero d o.input o.out with
    | (.error e, _, d) => (⟨[], [], .abrupt e⟩, d)
    | (.ok rs, stats, d) =>
      (⟨Batch.summary stats rs, [], if (Batch.failures rs).isEmpty then .success else .failure⟩, d)

def isSpaceByte (b : UInt8) : Bool := b = 32 || (9 ≤ b && b ≤ 13)

def trimBytes (bytes : List UInt8) : List UInt8 :=
  ((bytes.dropWhile isSpaceByte).reverse.dropWhile isSpaceByte).reverse

/-- Decodes a file that holds an encoded receipt, or base64 text of one. -/
def decodeFile (bytes : List UInt8) : Except Failure (List Value) :=
  if bytes.take 2 = Codec.magic then (Codec.decodeValues bytes).mapError .format
  else match Text.Base64.decode ((trimBytes bytes).map fun b => Char.ofNat b.toNat) with
    | .error e => .error (.base64 e)
    | .ok bytes => (Codec.decodeValues bytes).mapError .format

def runDecode (d : Disk) (input : Path) : Report :=
  match d.read input with
  | .error e => ⟨[], [], .abrupt (.file e)⟩
  | .ok bytes =>
    match decodeFile bytes with
    | .error e => .failed [] e
    | .ok vs =>
      match prettyText vs with
      | .error e => ⟨[], [], .abrupt (.unwritable e)⟩
      | .ok text => ⟨[text], [], .success⟩

def runRequest (d : Disk) : Request → Report × Disk
  | .build o => runBuild d o
  | .sections config => (runSections d config, d)
  | .batch o => runBatch d o
  | .decode input => (runDecode d input, d)

end Receipt.Command
