import Receipt.Layout.Registry
import Receipt.Proofs.Element
import Receipt.Proofs.Layout.Registry

/-!
# Rows that are read

A row is kept whole only if its type has no meaning in a layout. So it is for the rows that a map is
read to and for all rows inside them, `every_isRead_of_ofValue`, and so for the rows of a layout and
of every section of a registry.
-/
namespace Receipt

namespace Row

/-- The types that have a meaning in a layout. -/
def types : List String := ["text", "barcode", "row", "iterator", "sectionref"]

/-- The rows inside a row. -/
def inner : Row → List Row
  | .group children => children
  | .iterator _ rows => rows
  | _ => []

/-- The row has a property, and so have all rows inside it. -/
inductive Every (p : Row → Prop) : Row → Prop
  | intro {row : Row} : p row → (∀ r ∈ row.inner, Every p r) → Every p row

/-- What is kept whole has none of the types of rows. -/
def IsRead : Row → Prop
  | .passthrough payload => ∀ name ∈ types, ¬ payload.HasType name
  | _ => True

theorem isText_eq_false {v : Value} {s t : String} (h : v.isText s = true) (hne : s ≠ t) :
    v.isText t = false := by
  simp only [Value.isText, decide_eq_true_eq, decide_eq_false_iff_not] at h ⊢
  rw [h]
  exact fun heq => hne (Option.some.inj heq)

theorem ofNoList_eq_ok {v : Value} {rows : List Row} (h : ofNoList v = .ok rows) : rows = [] := by
  unfold ofNoList at h
  split at h
  · cases h
    rfl
  · split at h
    · cases h
    · cases h
      rfl
    · cases h

/-- A map is read by its type: to a row of the rows that stand under a name, to a reference, or to a
row without any inside. -/
theorem ofValue_map_cases (members : Members) :
    let type := Value.getOrNull "type" members
    (type.isText "row" = true ∧
        ofValue (.map members) = (listUnder "children" members).map .group) ∨
      (type.isText "row" = false ∧ type.isText "iterator" = true ∧
        ofValue (.map members) = do
          let path ← nameOf (Value.getOrNull "path" members)
          let rows ← listUnder "rows" members
          return .iterator path rows) ∨
      (type.isText "row" = false ∧ type.isText "iterator" = false ∧
        type.isText "sectionref" = true ∧
        ofValue (.map members) = (nameOf (Value.getOrNull "ref" members)).map .sectionRef) ∨
      (type.isText "row" = false ∧ type.isText "iterator" = false ∧
        type.isText "sectionref" = false ∧
        ∃ row, ofValue (.map members) = .ok row ∧ row.IsRead ∧ row.inner = []) := by
  intro type
  rw [ofValue]
  by_cases htext : type.isText "text" = true
  · rw [if_pos htext, isText_eq_false htext (by decide), isText_eq_false htext (by decide),
      isText_eq_false htext (by decide)]
    exact .inr (.inr (.inr ⟨rfl, rfl, rfl, _, rfl, trivial, rfl⟩))
  rw [if_neg htext]
  by_cases hbarcode : type.isText "barcode" = true
  · rw [if_pos hbarcode, isText_eq_false hbarcode (by decide), isText_eq_false hbarcode (by decide),
      isText_eq_false hbarcode (by decide)]
    exact .inr (.inr (.inr ⟨rfl, rfl, rfl, _, rfl, trivial, rfl⟩))
  rw [if_neg hbarcode]
  by_cases hrow : type.isText "row" = true
  · exact .inl ⟨hrow, if_pos hrow⟩
  rw [if_neg hrow]
  by_cases hiterator : type.isText "iterator" = true
  · exact .inr (.inl ⟨Bool.eq_false_iff.2 hrow, hiterator, if_pos hiterator⟩)
  rw [if_neg hiterator]
  have hneither := And.intro (Bool.eq_false_iff.2 hrow) (Bool.eq_false_iff.2 hiterator)
  by_cases hreference : type.isText "sectionref" = true
  · exact .inr (.inr (.inl ⟨hneither.1, hneither.2, hreference, if_pos hreference⟩))
  rw [if_neg hreference]
  refine .inr (.inr (.inr ⟨hneither.1, hneither.2, Bool.eq_false_iff.2 hreference, _, rfl, ?_, rfl⟩))
  intro name hname
  simp only [types, List.mem_cons, List.not_mem_nil, or_false] at hname
  rcases hname with rfl | rfl | rfl | rfl | rfl
  · exact htext
  · exact hbarcode
  · exact hrow
  · exact hiterator
  · exact hreference

/-- A map is read to a row whose inner rows, if it has any, stand in a list under a name. -/
theorem of_ofValue_map {members : Members} {row : Row} (h : ofValue (.map members) = .ok row) :
    row.IsRead ∧ (row.inner = [] ∨ ∃ name, listUnder name members = .ok row.inner) := by
  rcases ofValue_map_cases members with
    ⟨-, heq⟩ | ⟨-, -, heq⟩ | ⟨-, -, -, heq⟩ | ⟨-, -, -, row', heq, hread, hinner⟩
  · rw [heq] at h
    obtain ⟨children, hchildren, rfl⟩ := map_eq_ok h
    exact ⟨trivial, .inr ⟨"children", hchildren⟩⟩
  · rw [heq] at h
    obtain ⟨path, -, h⟩ := bind_eq_ok h
    obtain ⟨rows, hrows, h⟩ := bind_eq_ok h
    cases h
    exact ⟨trivial, .inr ⟨"rows", hrows⟩⟩
  · rw [heq] at h
    obtain ⟨ref, -, rfl⟩ := map_eq_ok h
    exact ⟨trivial, .inl rfl⟩
  · rw [heq] at h
    cases h
    exact ⟨hread, .inl hinner⟩

theorem exists_of_mem_ofItems {vs : List Value} {rows : List Row} (h : ofItems vs = .ok rows)
    {r : Row} (hr : r ∈ rows) : ∃ v ∈ vs, ofValue v = .ok r := by
  induction vs generalizing rows with
  | nil =>
      cases h
      cases hr
  | cons v vs ih =>
      rw [ofItems] at h
      obtain ⟨row, hrow, h⟩ := bind_eq_ok h
      obtain ⟨more, hmore, h⟩ := bind_eq_ok h
      cases h
      rcases List.mem_cons.1 hr with rfl | hr
      · exact ⟨v, List.mem_cons_self, hrow⟩
      · obtain ⟨w, hw, hread⟩ := ih hmore hr
        exact ⟨w, List.mem_cons_of_mem _ hw, hread⟩

/-- The rows of a value are read from parts of it. -/
theorem exists_of_mem_listOf {v : Value} {rows : List Row} (h : listOf v = .ok rows) {r : Row}
    (hr : r ∈ rows) : ∃ w, sizeOf w < sizeOf v ∧ ofValue w = .ok r := by
  cases v with
  | list items =>
      obtain ⟨w, hw, hread⟩ := exists_of_mem_ofItems h hr
      have hsize := List.sizeOf_lt_of_mem hw
      refine ⟨w, ?_, hread⟩
      rw [Value.list.sizeOf_spec]
      omega
  | tuple items =>
      obtain ⟨w, hw, hread⟩ := exists_of_mem_ofItems h hr
      have hsize := List.sizeOf_lt_of_mem hw
      refine ⟨w, ?_, hread⟩
      rw [Value.tuple.sizeOf_spec]
      omega
  | _ =>
      rw [ofNoList_eq_ok h] at hr
      cases hr

theorem exists_of_mem_listUnder {name : String} {members : Members} {rows : List Row}
    (h : listUnder name members = .ok rows) {r : Row} (hr : r ∈ rows) :
    ∃ w, sizeOf w < sizeOf members ∧ ofValue w = .ok r := by
  rw [listUnder_eq] at h
  cases hget : members.get? name with
  | none =>
      rw [hget] at h
      cases h
      cases hr
  | some v =>
      rw [hget] at h
      obtain ⟨w, hw, hread⟩ := exists_of_mem_listOf h hr
      exact ⟨w, Nat.lt_trans hw (Members.sizeOf_get?_lt hget), hread⟩

theorem every_isRead_of_ofValue {v : Value} {row : Row} (h : ofValue v = .ok row) :
    row.Every IsRead := by
  cases v with
  | map members =>
      obtain ⟨hread, hinner⟩ := of_ofValue_map h
      refine .intro hread fun r hr => ?_
      rcases hinner with hnone | ⟨name, hlist⟩
      · rw [hnone] at hr
        cases hr
      · obtain ⟨w, hsize, hw⟩ := exists_of_mem_listUnder hlist hr
        exact every_isRead_of_ofValue hw
  | _ => cases h
termination_by sizeOf v
decreasing_by
  rw [‹v = Value.map _›, Value.map.sizeOf_spec]
  omega

theorem every_isRead_of_listUnder {name : String} {members : Members} {rows : List Row}
    (h : listUnder name members = .ok rows) : ∀ r ∈ rows, r.Every IsRead := by
  intro r hr
  obtain ⟨w, -, hread⟩ := exists_of_mem_listUnder h hr
  exact every_isRead_of_ofValue hread

end Row

theorem Layout.every_isRead_of_ofValue {v : Value} {name : Option String} {layout : Layout}
    (h : Layout.ofValue v name = .ok layout) : ∀ r ∈ layout.rows, r.Every Row.IsRead := by
  unfold Layout.ofValue at h
  split at h
  · obtain ⟨rows, hrows, rfl⟩ := map_eq_ok h
    intro r hr
    obtain ⟨w, -, hread⟩ := Row.exists_of_mem_ofItems hrows hr
    exact Row.every_isRead_of_ofValue hread
  · obtain ⟨rows, hrows, rfl⟩ := map_eq_ok h
    exact Row.every_isRead_of_listUnder hrows
  · split at h
    · cases h
    · cases h
      nofun

/-- The rows of a section that is declared in a registry that was read. -/
theorem Registry.every_isRead_of_get? {v : Value} {registry : Registry} {name : String}
    {layout : Layout} (h : Registry.ofValue v = .ok registry)
    (found : registry.get? name = some layout) : ∀ r ∈ layout.rows, r.Every Row.IsRead := by
  unfold Registry.ofValue at h
  split at h
  · obtain ⟨w, -, -, hread⟩ := Registry.exists_member_of_get? h found
    exact Layout.every_isRead_of_ofValue hread
  · cases h

end Receipt
