import Receipt.Element
import Receipt.Layout.Registry
import Receipt.Settings

/-!
# Composition

Composition walks the rows of a layout against data and gives elements, in order. A group gives one
element and lies one level deeper; the rows of an iterator, once for each item, and the rows of a
referenced section also lie one level deeper, and their elements take the place of the row.

Two guards can stop it: a section that is referenced while it is being composed is a circle, and
levels have a limit. Without a limit, a section that is entered again while it is being composed
with the same data would go on for ever, unless it is refused as a circle. It is answered as such,
and so composition ends without any guard too: the data of an iterator's rows is a part of the data
around it.

No other limit is set to how deep rows may lie: where a machine runs out of room for nested calls is
left out of the model.
-/
namespace Receipt.Compose

/-- Why composition fails. -/
inductive Error where
  /-- A section is referenced while it is being composed; the names lead from the first section to
  the reference. -/
  | cyclic (chain : List String)
  | tooDeep (limit : DepthLimit)
  /-- Sections refer to one another without end. -/
  | endless
  | template (e : Template.Error)

def Error.message : Error → String
  | .cyclic chain => "Cyclic section reference: " ++ joined " -> " chain
  | .tooDeep limit =>
    "Receipt layout nested deeper than " ++ limit.toValue.plain ++ " levels"
  | .endless => ""
  | .template e => e.message

/-- Where composition stands: the sections around, the sections entered since the data last
changed, and the level. -/
structure Place where
  chain : List String
  entered : List String
  level : Nat

/-- A level deeper, with other data. -/
def Place.intoItems (p : Place) : Place := ⟨p.chain, [], p.level + 1⟩

/-- A level deeper, in a group. -/
def Place.intoGroup (p : Place) : Place := ⟨p.chain, p.entered, p.level + 1⟩

/-- A level deeper, in a section. -/
def Place.intoSection (p : Place) (name : String) : Place :=
  ⟨p.chain ++ [name], name :: p.entered, p.level + 1⟩

/-- The sections around the rows of a layout: those that are given, and the layout itself if it has
a name and is not one of them. -/
def startChain (layout : Layout) (chain : List String) : List String :=
  match layout.name with
  | none => chain
  | some name => if name = "" ∨ name ∈ chain then chain else chain ++ [name]

def isAmong (names : List String) (key : Key) : Bool := names.any fun name => key == .text name

/-- How many sections of a registry have not been entered. -/
def unentered (registry : Registry) (entered : List String) : Nat :=
  registry.countP fun entry => !isAmong entered entry.1

structure Env where
  settings : Settings
  registry : Registry

theorem isAmong_text {names : List String} {name : String} :
    isAmong names (.text name) = true ↔ name ∈ names := by
  simp [isAmong]

theorem unentered_cons_lt {registry : Registry} {entered : List String} {name : String}
    {layout : Layout} (found : registry.get? name = some layout) (fresh : name ∉ entered) :
    unentered registry (name :: entered) < unentered registry entered := by
  unfold unentered
  induction registry with
  | nil => simp [Registry.get?] at found
  | cons entry rest ih =>
      by_cases hk : entry.1 = .text name
      · have le : rest.countP (fun entry => !isAmong (name :: entered) entry.1) ≤
            rest.countP fun entry => !isAmong entered entry.1 :=
          List.countP_mono_left fun entry _ => by simp [isAmong]
        have fresh : isAmong entered (.text name) = false := by
          rw [Bool.eq_false_iff, Ne, isAmong_text]
          exact fresh
        have seen : isAmong (name :: entered) (.text name) = true :=
          isAmong_text.2 List.mem_cons_self
        simp only [List.countP_cons, hk, fresh, seen]
        simp only [Bool.not_true, Bool.not_false, Bool.false_eq_true, if_false, if_true]
        omega
      · have same : isAmong (name :: entered) entry.1 = isAmong entered entry.1 := by
          simp [isAmong, hk]
        have := ih (by simpa [Registry.get?, hk] using found)
        simp only [List.countP_cons, same]
        omega

namespace Env

/-- Refuses a level beyond the limit. -/
def checkLevel (env : Env) (level : Nat) : Except Error Unit :=
  match env.settings.limit? with
  | none => .ok ()
  | some (deepest, limit) => if deepest < level then .error (.tooDeep limit) else .ok ()

/-- How many levels may still be entered, if they have a limit. -/
def levelsLeft (env : Env) (level : Nat) : Nat :=
  match env.settings.limit? with
  | none => 0
  | some (deepest, _) => deepest + 1 - level

theorem levelsLeft_succ_le (env : Env) (level : Nat) :
    env.levelsLeft (level + 1) ≤ env.levelsLeft level := by
  unfold levelsLeft
  split <;> omega

theorem levelsLeft_succ_lt {env : Env} {level : Nat} (limited : env.settings.limit? ≠ none)
    (h : env.checkLevel (level + 1) = .ok ()) :
    env.levelsLeft (level + 1) < env.levelsLeft level := by
  unfold checkLevel at h
  unfold levelsLeft
  cases hlimit : env.settings.limit? with
  | none => exact (limited hlimit).elim
  | some bound =>
      simp only [hlimit] at h
      split at h
      · cases h
      · show bound.1 + 1 - (level + 1) < bound.1 + 1 - level
        omega

/-- A deeper level is a smaller task if the rest of the task is. -/
theorem lex_levelsLeft (env : Env) (level : Nat) {task task' : Nat × Nat × Nat}
    (h : WellFoundedRelation.rel task' task) :
    WellFoundedRelation.rel (env.levelsLeft (level + 1), task') (env.levelsLeft level, task) := by
  rcases Nat.lt_or_eq_of_le (env.levelsLeft_succ_le level) with hlt | heq
  · exact Prod.Lex.left _ _ hlt
  · rw [heq]
    exact Prod.Lex.right _ h

def expand [Host] (env : Env) (template data : Value) : Except Error Value :=
  match env.settings.expander.expand template data with
  | .ok s => .ok (.text s)
  | .error e => .error (.template e)

/-- The section of a reference, if it is declared and may be entered. -/
def enter (env : Env) (p : Place) (ref : String) : Except Error (Option Layout) :=
  match env.registry.get? ref with
  | none => .ok none
  | some layout =>
    if env.settings.guarded ∧ ref ∈ p.chain then .error (.cyclic (p.chain ++ [ref]))
    else do
      env.checkLevel (p.level + 1)
      if env.settings.limit? = none ∧ ref ∈ p.entered then throw .endless else return some layout

theorem enter_eq_some {env : Env} {p : Place} {ref : String} {layout : Layout}
    (h : env.enter p ref = .ok (some layout)) :
    env.registry.get? ref = some layout ∧ env.checkLevel (p.level + 1) = .ok () ∧
      (env.settings.limit? = none → ref ∉ p.entered) := by
  unfold enter at h
  split at h
  · simp at h
  · next found hf =>
    split at h
    · simp at h
    · cases hl : env.checkLevel (p.level + 1) with
      | error e => simp [hl, bind, Except.bind] at h
      | ok u =>
        by_cases hr : env.settings.limit? = none ∧ ref ∈ p.entered
        · simp [hl, hr, bind, Except.bind, throw, throwThe, MonadExceptOf.throw] at h
        · simp only [hl, hr, bind, Except.bind, pure, Except.pure, if_false, Except.ok.injEq,
            Option.some.injEq] at h
          exact ⟨hf.trans (congrArg some h), rfl, fun hnone hmem => hr ⟨hnone, hmem⟩⟩

variable [Host]

mutual
def composeRow (env : Env) (p : Place) (data : Value) (row : Row) :
    Except Error (List Element) :=
  match row with
  | .text template align flex style => do
    let text ← env.expand template data
    return [.text text align flex style]
  | .barcode template barcodeType => do
    let code ← env.expand template data
    return [.barcode code barcodeType .null]
  | .group children => do
    env.checkLevel (p.level + 1)
    let es ← composeRows env p.intoGroup data children
    return [.row es .null]
  | .iterator path rows =>
    match _h : Template.resolve data path with
    | .list items => composeItems env p.intoItems items rows
    | _ => .ok []
  | .sectionRef ref =>
    match _h : env.enter p ref with
    | .error e => .error e
    | .ok none => .ok []
    | .ok (some layout) => composeRows env (p.intoSection ref) data layout.rows
  | .passthrough payload => .ok [.passthrough payload]
termination_by
  (env.levelsLeft p.level, sizeOf data, unentered env.registry p.entered, sizeOf row)
decreasing_by
  · apply lex_levelsLeft; apply Prod.Lex.right; apply Prod.Lex.right
    show sizeOf children < sizeOf (Row.group children)
    simp
  · apply lex_levelsLeft; apply Prod.Lex.left; exact Template.sizeOf_items_lt _h
  · obtain ⟨found, passed, fresh⟩ := enter_eq_some _h
    by_cases limited : env.settings.limit? = none
    · apply lex_levelsLeft; apply Prod.Lex.right; apply Prod.Lex.left
      exact unentered_cons_lt found (fresh limited)
    · apply Prod.Lex.left; exact levelsLeft_succ_lt limited passed

def composeRows (env : Env) (p : Place) (data : Value) (rows : List Row) :
    Except Error (List Element) :=
  match rows with
  | [] => .ok []
  | row :: rest => do
    let here ← composeRow env p data row
    let more ← composeRows env p data rest
    return here ++ more
termination_by
  (env.levelsLeft p.level, sizeOf data, unentered env.registry p.entered, sizeOf rows)

def composeItems (env : Env) (p : Place) (items : List Value) (rows : List Row) :
    Except Error (List Element) :=
  match items with
  | [] => .ok []
  | item :: rest => do
    env.checkLevel p.level
    let here ← composeRows env p item rows
    let more ← composeItems env p rest rows
    return here ++ more
termination_by (env.levelsLeft p.level, sizeOf items, 0, 0)
end

def compose (env : Env) (layout : Layout) (data : Value) (chain : List String) :
    Except Error (List Element) :=
  composeRows env ⟨startChain layout chain, [], 0⟩ data layout.rows

end Env
end Receipt.Compose
