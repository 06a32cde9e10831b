import Receipt.Command.Disk
import Receipt.Template.Expand

/-!
# Requests

What a command is asked for, with the files that it is to look at.
-/
namespace Receipt.Command

inductive Format where
  | json | base64
  deriving DecidableEq, Repr

/-- What to build a section from, and where to put it. -/
structure BuildOptions where
  config : Path
  data : Path
  name : String
  format : Format
  out : Option Path
  settings : Option Path
  emptyValues : Option Template.EmptyPolicy

/-- What to build a section from for many data files. -/
structure BatchOptions where
  config : Path
  input : Path
  name : String
  out : Path
  format : Format
  settings : Option Path
  workers : Int

inductive Request where
  | build (options : BuildOptions)
  | sections (config : Path)
  | batch (options : BatchOptions)
  | decode (input : Path)

end Receipt.Command
