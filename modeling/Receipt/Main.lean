import Receipt.Command.Options
import Receipt.Host.Standard

/-!
# The program

The program looks at the files and directories that its command line names, runs the command on
them, and writes what the command has changed.
-/
namespace Receipt.Command

/-- The path of a word, with double points taken away. -/
def plainPath (word : String) : Path :=
  (Path.ofText word).foldl (fun p n => if n = ".." then p.dropLast else p ++ [n]) []

/-- The words of a command line that may be paths. -/
def pathWords (words : List String) : List String :=
  words.flatMap fun word => word :: (Arguments.cutWord word).2.toList

def look (p : Path) : IO (Option Entry) := do
  let there := (← IO.currentDir) / p.text
  if ← there.isDir then return some .directory
  else if ← there.pathExists then return some (.file (← IO.FS.readBinFile there).toList)
  else return none

def lookInside (p : Path) : IO (List Path) := do
  let there := (← IO.currentDir) / p.text
  if ← there.isDir then
    return (← there.readDir).toList.map fun entry => p ++ [entry.fileName]
  else return []

/-- The path, those around it and those in it. -/
def pathsAbout (p : Path) : IO (List Path) := do
  return (List.range p.length).map (fun n => p.take (n + 1)) ++ (← lookInside p)

/-- The disk as far as a command line can see it. -/
def snapshot (words : List String) : IO Disk := do
  let mut disk : Disk := []
  for word in pathWords words do
    for p in ← pathsAbout (plainPath word) do
      match ← look p with
      | some entry => disk := disk.put p entry
      | none => pure ()
  return disk

def save (before after : Disk) : IO Unit := do
  for (p, entry) in after do
    if before.get? p ≠ some entry then
      match entry with
      | .directory => IO.FS.createDirAll p.text
      | .file bytes => IO.FS.writeBinFile p.text (ByteArray.mk bytes.toArray)

def usageText : String :=
  "Usage: receipts [--debug] build|sections|batch|decode [options]"

/-- Runs a command line on the real disk and gives its status. -/
def runOnDisk [Host] (words : List String) : IO UInt32 := do
  let disk ← snapshot words
  let (report, after) := run disk words
  save disk after
  IO.print (Report.text report.output)
  for line in report.errors do IO.eprintln line
  match report.ending with
  | .help => IO.println usageText
  | .usage => IO.eprintln usageText
  | .abrupt e => IO.eprintln ("Ended abruptly. " ++ e.message)
  | _ => pure ()
  return UInt32.ofNat report.ending.status

end Receipt.Command

/-- The entry of the program. -/
def main (words : List String) : IO UInt32 :=
  haveI := Receipt.Host.standard 2025
  Receipt.Command.runOnDisk words
