import Receipt.Text.Quoted
import Receipt.Text.Split
import Receipt.Value.Literal

/-!
# Files and directories

A disk is the files and directories that a command can see, by their paths. Paths start at the
directory that the command runs in; a path from the root has `/` for its first name.

Main statements: an entry that was put at a path is found there, `Disk.lookup_put_self`, and the
entries at other paths are as before, `Disk.lookup_put_of_ne`.
-/
namespace Receipt.Command

/-- The names on the way to a file. -/
abbrev Path := List String

namespace Path

/-- The path that a text names; empty names and single points add nothing. -/
def ofText (s : String) : Path :=
  let names := ((Text.splitOn '/' s.toList).map String.ofList).filter fun n => n ≠ "" ∧ n ≠ "."
  if s.toList.head? = some '/' then "/" :: names else names

/-- The path as text; the path without names is a point. -/
def text : Path → String
  | [] => "."
  | "/" :: names => "/" ++ joined "/" names
  | names => joined "/" names

def name (p : Path) : String := (p.getLast?).getD ""

/-- A name without the last point and what follows it, and that. A point at either end of the name
is part of it. -/
def splitName (name : String) : String × String :=
  let cs := name.toList
  let tail := (cs.reverse.takeWhile (· ≠ '.')).reverse
  let front := cs.take (cs.length - tail.length - 1)
  if tail.length = cs.length ∨ tail = [] ∨ front = [] then (name, "")
  else (String.ofList front, String.ofList ('.' :: tail))

def stem (p : Path) : String := (splitName p.name).1

def suffix (p : Path) : String := (splitName p.name).2

end Path

inductive FileProblem where
  | missing
  | taken
  | notDirectory
  | isDirectory
  deriving DecidableEq, Repr

def FileProblem.message : FileProblem → String
  | .missing => "[Errno 2] No such file or directory"
  | .taken => "[Errno 17] File exists"
  | .notDirectory => "[Errno 20] Not a directory"
  | .isDirectory => "[Errno 21] Is a directory"

structure FileError where
  problem : FileProblem
  path : Path
  deriving DecidableEq, Repr

def FileError.message (e : FileError) : String :=
  e.problem.message ++ ": " ++ Text.Quoted.ofString e.path.text

/-- What a path leads to. -/
inductive Entry where
  | file (bytes : List UInt8)
  | directory
  deriving DecidableEq, Repr

/-- Entries under their paths. The directory that the command runs in is not among them. -/
abbrev Disk := List (Path × Entry)

namespace Disk

/-- The entry at a path that is written without double points. -/
def get? (d : Disk) (p : Path) : Option Entry :=
  if p = [] then some .directory else d.lookup p

/-- Puts an entry at a path, in the place of the one that was there. -/
def put (p : Path) (e : Entry) : Disk → Disk
  | [] => [(p, e)]
  | entry :: rest => if entry.1 = p then (p, e) :: rest else entry :: put p e rest

theorem lookup_put_self (p : Path) (e : Entry) (d : Disk) :
    List.lookup p (put p e d) = some e := by
  induction d with
  | nil => simp [put]
  | cons entry rest ih =>
      obtain ⟨q, f⟩ := entry
      by_cases h : q = p
      · simp [put, h]
      · simp only [put, h, if_false]
        rw [List.lookup_cons, beq_false_of_ne (Ne.symm h)]
        exact ih

theorem lookup_put_of_ne {p q : Path} (h : q ≠ p) (e : Entry) (d : Disk) :
    List.lookup q (put p e d) = List.lookup q d := by
  have hb : (q == p) = false := beq_false_of_ne h
  induction d with
  | nil => simp only [put, List.lookup_cons, hb, List.lookup_nil]
  | cons entry rest ih =>
      obtain ⟨r, f⟩ := entry
      by_cases hr : r = p
      · subst hr
        simp only [put, if_true, List.lookup_cons, hb]
      · simp only [put, hr, if_false, List.lookup_cons, ih]

def enter (d : Disk) (here : Path) (name : String) : Except FileProblem Path :=
  if name = ".." then .ok here.dropLast
  else match d.get? (here ++ [name]) with
    | none => .error .missing
    | some (.file _) => .error .notDirectory
    | some .directory => .ok (here ++ [name])

/-- Where a path leads: every name but the last has to be a directory. -/
def locate (d : Disk) (p : Path) : Except FileProblem Path :=
  match p.getLast? with
  | none => .ok []
  | some last => do
    let parent ← p.dropLast.foldlM d.enter []
    return if last = ".." then parent.dropLast else parent ++ [last]

def find (d : Disk) (p : Path) : Except FileProblem (Option Entry) := do
  return d.get? (← d.locate p)

def holds (d : Disk) (p : Path) : Bool :=
  match d.find p with
  | .ok (some _) => true
  | _ => false

def isDirectory (d : Disk) (p : Path) : Bool :=
  match d.find p with
  | .ok (some .directory) => true
  | _ => false

def read (d : Disk) (p : Path) : Except FileError (List UInt8) :=
  match d.find p with
  | .error problem => .error ⟨problem, p⟩
  | .ok none => .error ⟨.missing, p⟩
  | .ok (some .directory) => .error ⟨.isDirectory, p⟩
  | .ok (some (.file bytes)) => .ok bytes

def write (d : Disk) (p : Path) (bytes : List UInt8) : Except FileError Disk :=
  match d.locate p with
  | .error problem => .error ⟨problem, p⟩
  | .ok there =>
    match d.get? there with
    | some .directory => .error ⟨.isDirectory, p⟩
    | _ => .ok (d.put there (.file bytes))

/-- Makes a directory and those around it; one that is there already will do. -/
def makeDirectory (d : Disk) (p : Path) : Except FileError Disk :=
  let step (made : Path × Disk) (name : String) : Except FileError (Path × Disk) :=
    let here := made.1 ++ [name]
    match made.2.locate here with
    | .error problem => .error ⟨problem, p⟩
    | .ok there =>
      match made.2.get? there with
      | some .directory => .ok (here, made.2)
      | none => .ok (here, made.2.put there .directory)
      | some (.file _) => .error ⟨if here = p then .taken else .notDirectory, p⟩
  (p.foldlM step ([], d)).map Prod.snd

def list (d : Disk) (p : Path) : List String :=
  match d.find p, d.locate p with
  | .ok (some .directory), .ok there =>
    d.filterMap fun entry =>
      if entry.1 ≠ [] ∧ entry.1.dropLast = there then entry.1.getLast? else none
  | _, _ => []

end Disk
end Receipt.Command
