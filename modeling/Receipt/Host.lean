import Receipt.Time.Zone
import Receipt.Value.Basic

/-!
# The host

What composition takes from the machine it runs on: how YAML and date text are read there, which
local time it keeps, and how much memory there is. Nothing is said of these, so that whatever is
proved holds on every host; a statement that needs more of them says what.

Documents are made of the values of `Value`: bytes, sets and lists that hold themselves, which YAML
can write with tags and anchors, have no place among them.
-/
namespace Receipt

theorem append_ne_empty_left {s : String} (h : s ≠ "") (t : String) : s ++ t ≠ "" :=
  fun hempty => h (String.append_eq_empty_iff.1 hempty).1

theorem append_ne_empty_right (s : String) {t : String} (h : t ≠ "") : s ++ t ≠ "" :=
  fun hempty => h (String.append_eq_empty_iff.1 hempty).2

/-- Why a document is not read: the kind of the failure, what it says, and whether commands report
failures of this kind, which then say something. -/
structure ReadFailure where
  kind : String
  message : String
  reported : Bool
  message_ne_empty : reported = true → message ≠ ""
  deriving DecidableEq, Repr

/-- A host, by the parts of it that composition uses. -/
class Host where
  /-- Reads the bytes of a file as YAML; messages show the name of the file. -/
  readYaml : (name : String) → List UInt8 → Except ReadFailure Value
  /-- Reads date text, with 1 January 1970 for what it does not say. It gives nothing for text that
  it refuses, and does not fail in another way. -/
  readDate : List Char → Option Time.Reading
  zone : Time.Zone
  /-- Memory holds texts of fewer characters than this. -/
  memory : Nat

end Receipt
