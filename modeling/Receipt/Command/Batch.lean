import Receipt.Command.Output

/-!
# Building a section for many files

A batch takes every data file of a directory, builds the section from each and writes the elements
to a file of their own. A file that fails is reported among the results and stops no other.

Files of one stem that differ in their suffix keep it in the names of their outputs. The counters
run on from batch to batch, except for the number of files, which is that of the last batch.
-/
namespace Receipt.Command

structure Batch where
  registry : Registry
  name : String
  settings : Settings
  workers : Int
  format : Format

structure FileResult where
  file : Path
  output : Option Path
  elements : Nat
  warnings : List String
  error : Option String

namespace FileResult

/-- The failure of a file, if there is any text of it. -/
def failure? (r : FileResult) : Option String := r.error.filter (· ≠ "")

end FileResult

structure Stats where
  total : Nat
  composed : Nat
  failed : Nat
  warnings : Nat
  deriving DecidableEq, Repr

namespace Stats

def zero : Stats := ⟨0, 0, 0, 0⟩

def count (s : Stats) (r : FileResult) : Stats :=
  let s := { s with warnings := s.warnings + r.warnings.length }
  if r.failure?.isSome then { s with failed := s.failed + 1 }
  else { s with composed := s.composed + 1 }

end Stats

namespace Batch

def isDataName (name : String) : Bool :=
  let cs := name.toList
  [".json", ".yml", ".yaml"].any fun ending => ending.toList.isSuffixOf cs

def dataFiles (d : Disk) (input : Path) : List Path :=
  let names := ((d.list input).filter isDataName).mergeSort fun a b => decide (a ≤ b)
  names.map fun n => input ++ [n]

def outputSuffix : Format → String
  | .json => ".json"
  | .base64 => ".b64"

/-- The name of the output of one file among others. -/
def outputName (format : Format) (files : List Path) (p : Path) : String :=
  (if 1 < files.countP fun q => q.stem = p.stem then p.name else p.stem) ++ outputSuffix format

def outputNames (format : Format) (files : List Path) : List String :=
  files.map (outputName format files)

variable [Host]

def tryFile (b : Batch) (d : Disk) (file outDir : Path) (outName : String) :
    Except Failure (FileResult × Disk) := do
  let data ← loadData d file
  let built ← (build b.settings b.registry b.name data).mapError .composition
  let text ← render b.format built.elements
  let out := outDir ++ [outName]
  let d ← (d.write out (Text.Utf8.ofString text)).mapError .file
  return (⟨file, some out, built.elements.length, built.warnings, none⟩, d)

/-- Builds from one file; a failure that is reported becomes the result. -/
def composeFile (b : Batch) (d : Disk) (file outDir : Path) (outName : Option String) :
    Except Failure FileResult × Disk :=
  match b.tryFile d file outDir (outName.getD (outputName b.format [file] file)) with
  | .ok (r, d) => (.ok r, d)
  | .error e =>
    if e.reported then (.ok ⟨file, none, 0, [], some e.message⟩, d) else (.error e, d)

/-- Builds from each file; every file is built even if another ends abruptly. -/
def composeFiles (b : Batch) (outDir : Path) (files : List Path) :
    Disk → List Path → List (Except Failure FileResult) × Disk
  | d, [] => ([], d)
  | d, file :: rest =>
    let (r, d) := b.composeFile d file outDir (some (outputName b.format files file))
    let (rs, d) := composeFiles b outDir files d rest
    (r :: rs, d)

/-- Counts results up to the first abrupt end. -/
def gather (stats : Stats) :
    List (Except Failure FileResult) → Stats × Except Failure (List FileResult)
  | [] => (stats, .ok [])
  | .error e :: _ => (stats, .error e)
  | .ok r :: rest =>
    let (stats, rs) := gather (stats.count r) rest
    (stats, rs.map (r :: ·))

def sorted (rs : List FileResult) : List FileResult :=
  rs.mergeSort fun a b => decide (a.file.text ≤ b.file.text)

def composeBatch (b : Batch) (stats : Stats) (d : Disk) (input outDir : Path) :
    Except Failure (List FileResult) × Stats × Disk :=
  let files := dataFiles d input
  let stats := { stats with total := files.length }
  if files = [] then (.ok [], stats, d)
  else match d.makeDirectory outDir with
    | .error e => (.error (.file e), stats, d)
    | .ok d =>
      if b.workers < 1 then (.error .noWorkers, stats, d)
      else
        let (rs, d) := b.composeFiles outDir files d files
        let (stats, rs) := gather stats rs
        (rs.map sorted, stats, d)

def rule : String := String.ofList (List.replicate 50 '=')

def failureLines (failed : List (Path × String)) : List String :=
  (failed.take 10).map (fun f => "  - " ++ f.1.name ++ ": " ++ f.2)
    ++ if 10 < failed.length then ["  ... and " ++ toString (failed.length - 10) ++ " more"] else []

/-- The files that failed, each with its failure. -/
def failures (rs : List FileResult) : List (Path × String) :=
  rs.filterMap fun r => r.failure?.map fun e => (r.file, e)

def summary (stats : Stats) (rs : List FileResult) : List String :=
  [rule, "COMPOSITION SUMMARY", rule, "Data files found: " ++ toString stats.total,
    "Composed: " ++ toString stats.composed, "Failed: " ++ toString stats.failed,
    "Warnings: " ++ toString stats.warnings] ++ failureLines (failures rs)

end Batch
end Receipt.Command
