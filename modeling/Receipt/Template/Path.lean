import Receipt.Text.Split
import Receipt.Value.Basic

/-!
# Dotted paths

A path is a text of names with points between. Each name leads into a map; a path that leads
through anything else, or to a name that is not there, ends at `missing`. Lists are not entered.

Main statements: a joined path is followed by following its two parts, `follow_append` and
`pathNames_append`; the items of a list at a path are smaller than the value, `sizeOf_items_lt`.
-/
namespace Receipt.Template

/-- The names of a path; a path of no characters is one empty name. -/
def pathNames (path : String) : List String :=
  (Text.splitOn '.' path.toList).map String.ofList

def enter (v : Value) (name : String) : Value := (v.get? name).getD .missing

def follow (v : Value) (names : List String) : Value := names.foldl enter v

/-- The value at a path. -/
def resolve (v : Value) (path : String) : Value := follow v (pathNames path)

@[simp] theorem follow_missing (names : List String) : follow .missing names = .missing := by
  induction names with
  | nil => rfl
  | cons name names ih => exact ih

theorem follow_append (v : Value) (xs ys : List String) :
    follow v (xs ++ ys) = follow (follow v xs) ys := by
  simp [follow]

theorem pathNames_append (p q : String) :
    pathNames (p ++ "." ++ q) = pathNames p ++ pathNames q := by
  simp [pathNames, Text.splitOn_append]

theorem sizeOf_enter_le (v : Value) (name : String) : sizeOf (enter v name) ≤ sizeOf v := by
  unfold enter
  cases v <;> simp only [Value.get?, Option.getD_none, Value.missing.sizeOf_spec]
  case map members =>
    cases h : Members.get? name members with
    | none => simp
    | some w =>
      have := Members.sizeOf_get?_lt h
      simp only [Option.getD_some, Value.map.sizeOf_spec]
      omega
  all_goals simp

theorem sizeOf_follow_le (v : Value) (names : List String) :
    sizeOf (follow v names) ≤ sizeOf v := by
  induction names generalizing v with
  | nil => exact Nat.le_refl _
  | cons name names ih => exact Nat.le_trans (ih _) (sizeOf_enter_le v name)

theorem sizeOf_items_lt {v : Value} {path : String} {items : List Value}
    (h : resolve v path = .list items) : sizeOf items < sizeOf v := by
  have := sizeOf_follow_le v (pathNames path)
  unfold resolve at h
  rw [h, Value.list.sizeOf_spec] at this
  omega

end Receipt.Template
