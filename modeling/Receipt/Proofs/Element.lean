import Receipt.Element
import Receipt.Proofs.Except

/-!
# Elements and their maps

The map of an element leaves out what is null, and reading a map takes what is absent for null. So
an element is restored from its map, `ofValue_toValue`, unless a text or a code of it is null, which
would come back empty, or something was passed through under the type of another kind of element.

A property of an element and of all elements inside it is `Every` of the property.
-/
namespace Receipt

/-- The members give a name as their type. -/
def Members.HasType (name : String) (members : Members) : Prop :=
  (Value.getOrNull "type" members).isText name = true

namespace Element

/-- The elements inside an element. -/
def children : Element → List Element
  | .row children _ => children
  | _ => []

/-- The element has a property, and so have all elements inside it. -/
inductive Every (p : Element → Prop) : Element → Prop
  | intro {e : Element} : p e → (∀ c ∈ e.children, Every p c) → Every p e

theorem Every.mono {p q : Element → Prop} (hpq : ∀ e, p e → q e) {e : Element} (h : e.Every p) :
    e.Every q := by
  induction h with
  | intro hp _ ih => exact .intro (hpq _ hp) ih

section Compact

variable {name : String} {members : Members}

theorem compact_cons_null (key : Key) (members : Members) :
    compact ((key, .null) :: members) = compact members := rfl

theorem compact_cons_of_ne {v : Value} (hv : v ≠ .null) (key : Key) (members : Members) :
    compact ((key, v) :: members) = (key, v) :: compact members := by
  cases v with
  | null => exact (hv rfl).elim
  | _ => rfl

/-- A name that is not among the members is not among those that are not null. -/
theorem get?_compact_of_not_mem (h : Key.text name ∉ members.map Prod.fst) :
    (compact members).get? name = none := by
  induction members with
  | nil => rfl
  | cons member rest ih =>
      obtain ⟨key, v⟩ := member
      rw [List.map_cons, List.mem_cons, not_or] at h
      by_cases hv : v = .null
      · rw [hv, compact_cons_null]
        exact ih h.2
      · rw [compact_cons_of_ne hv, Members.get?, if_neg (Ne.symm h.1)]
        exact ih h.2

theorem get?_compact_of_ne {v : Value} (h : members.get? name = some v) (hv : v ≠ .null) :
    (compact members).get? name = some v := by
  induction members with
  | nil => cases h
  | cons member rest ih =>
      obtain ⟨key, w⟩ := member
      rw [Members.get?] at h
      by_cases hkey : key = .text name
      · rw [if_pos hkey, Option.some.injEq] at h
        rw [h, compact_cons_of_ne hv, Members.get?, if_pos hkey]
      · rw [if_neg hkey] at h
        by_cases hw : w = .null
        · rw [hw, compact_cons_null]
          exact ih h
        · rw [compact_cons_of_ne hw, Members.get?, if_neg hkey]
          exact ih h

/-- A member that is null is absent. -/
theorem get?_compact_of_null (hkeys : (members.map Prod.fst).Nodup)
    (h : members.get? name = some .null) : (compact members).get? name = none := by
  induction members with
  | nil => cases h
  | cons member rest ih =>
      obtain ⟨key, w⟩ := member
      rw [List.map_cons, List.nodup_cons] at hkeys
      rw [Members.get?] at h
      by_cases hkey : key = .text name
      · rw [if_pos hkey, Option.some.injEq] at h
        rw [h, compact_cons_null]
        exact get?_compact_of_not_mem (hkey ▸ hkeys.1)
      · rw [if_neg hkey] at h
        by_cases hw : w = .null
        · rw [hw, compact_cons_null]
          exact ih hkeys.2 h
        · rw [compact_cons_of_ne hw, Members.get?, if_neg hkey]
          exact ih hkeys.2 h

theorem not_mem_of_get?_eq_none (h : members.get? name = none) :
    Key.text name ∉ members.map Prod.fst := by
  induction members with
  | nil => nofun
  | cons member rest ih =>
      obtain ⟨key, w⟩ := member
      rw [Members.get?] at h
      by_cases hkey : key = .text name
      · rw [if_pos hkey] at h
        cases h
      · rw [if_neg hkey] at h
        rw [List.map_cons, List.mem_cons, not_or]
        exact ⟨Ne.symm hkey, ih h⟩

/-- Leaving out what is null changes nothing where absent is taken for null. -/
theorem getOrNull_compact (hkeys : (members.map Prod.fst).Nodup) (name : String) :
    Value.getOrNull name (compact members) = Value.getOrNull name members := by
  unfold Value.getOrNull
  cases hget : members.get? name with
  | none => rw [get?_compact_of_not_mem (not_mem_of_get?_eq_none hget)]
  | some v =>
      by_cases hv : v = .null
      · rw [hv] at hget ⊢
        rw [get?_compact_of_null hkeys hget]
        rfl
      · rw [get?_compact_of_ne hget hv]

end Compact

section Members

variable (name : String)

theorem getOrNull_text (t align flex style : Value) :
    Value.getOrNull name (members (.text t align flex style)) =
      Value.getOrNull name [(.text "type", .text "text"), (.text "text", t),
        (.text "align", align), (.text "style", style), (.text "flex", flex)] := by
  rw [members]
  exact getOrNull_compact (by simp) name

theorem getOrNull_barcode (code barcodeType flex : Value) :
    Value.getOrNull name (members (.barcode code barcodeType flex)) =
      Value.getOrNull name [(.text "type", .text "barcode"), (.text "code", code),
        (.text "barcode_type", barcodeType), (.text "flex", flex)] := by
  rw [members]
  exact getOrNull_compact (by simp) name

theorem getOrNull_row (children : List Element) (flex : Value) :
    Value.getOrNull name (members (.row children flex)) =
      Value.getOrNull name [(.text "type", .text "row"),
        (.text "children", .list (toValues children)), (.text "flex", flex)] := by
  rw [members]
  exact getOrNull_compact (by simp) name

theorem hasType_text (t align flex style : Value) :
    (members (.text t align flex style)).HasType "text" := by
  rw [Members.HasType, getOrNull_text]
  rfl

theorem hasType_barcode (code barcodeType flex : Value) :
    (members (.barcode code barcodeType flex)).HasType "barcode" := by
  rw [Members.HasType, getOrNull_barcode]
  rfl

theorem hasType_row (children : List Element) (flex : Value) :
    (members (.row children flex)).HasType "row" := by
  rw [Members.HasType, getOrNull_row]
  rfl

theorem get?_children (children : List Element) (flex : Value) :
    (members (.row children flex)).get? "children" = some (.list (toValues children)) := by
  rw [members]
  exact get?_compact_of_ne rfl nofun

end Members

/-- The map of an element says everything of it. -/
def IsRestorable : Element → Prop
  | .text t _ _ _ => t ≠ .null
  | .barcode code _ _ => code ≠ .null
  | .row _ _ => True
  | .passthrough payload => ∀ name ∈ ["text", "barcode", "row"], ¬ payload.HasType name

theorem ofItems_toValues {es : List Element} (h : ∀ e ∈ es, ofValue e.toValue = .ok e) :
    ofItems (toValues es) = .ok es := by
  induction es with
  | nil => rfl
  | cons e es ih =>
      have hhead : ofValue (.map e.members) = .ok e := h e List.mem_cons_self
      rw [toValues, ofItems, hhead, ih fun d hd => h d (List.mem_cons_of_mem _ hd)]
      rfl

/-- An element is restored from its map. -/
theorem ofValue_toValue {e : Element} (h : e.Every IsRestorable) : ofValue e.toValue = .ok e := by
  induction h with
  | @intro e he _ ih =>
      rw [toValue, ofValue]
      cases e with
      | text t align flex style =>
          have htext : (members (.text t align flex style)).get? "text" = some t := by
            rw [members]
            exact get?_compact_of_ne rfl he
          simp only [getOrNull_text, htext]
          rfl
      | barcode code barcodeType flex =>
          have hcode : (members (.barcode code barcodeType flex)).get? "code" = some code := by
            rw [members]
            exact get?_compact_of_ne rfl he
          simp only [getOrNull_barcode, hcode]
          rfl
      | row children flex =>
          have hchildren : listUnder "children" (members (.row children flex)) = .ok children := by
            rw [listUnder_eq, get?_children]
            exact ofItems_toValues ih
          simp only [getOrNull_row, hchildren]
          rfl
      | passthrough payload =>
          have htext := he "text" (by decide)
          have hbarcode := he "barcode" (by decide)
          have hrow := he "row" (by decide)
          unfold Members.HasType at htext hbarcode hrow
          rw [members, if_neg htext, if_neg hbarcode, if_neg hrow]

/-- So is every element inside it. -/
theorem Every.restored {p : Element → Prop} (hp : ∀ e, p e → e.IsRestorable) {e : Element}
    (h : e.Every p) : e.Every fun e => p e ∧ ofValue e.toValue = .ok e := by
  induction h with
  | intro he hchildren ih =>
      have hevery := (Every.intro he hchildren).mono hp
      exact .intro ⟨he, ofValue_toValue hevery⟩ ih

end Element
end Receipt
