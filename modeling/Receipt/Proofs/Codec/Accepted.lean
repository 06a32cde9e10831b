import Mathlib.Data.List.Forall2
import Receipt.Proofs.Codec.Decoded
import Receipt.Proofs.Json.Written

/-!
# What is accepted

Elements are brought into the form of items one by one, `ofItems_eq_ok_iff`. An element that is
accepted has a type that the format knows, and what it has inside is accepted as well:
`of_ofValue_eq_ok`. Its conditions, and those of the elements inside it, have no fault, so the line
that they are written as can be read: `every_conditionsRead`.
-/
namespace Receipt.Codec

/-- The elements inside an element of a kind. -/
def elementsOf (kind : Kind) (members : Members) : List Value :=
  match innerName kind with
  | none => []
  | some name => elementsUnder name members

theorem exists_name_of_mem_elementsOf {kind : Kind} {members : Members} {e : Value}
    (h : e ∈ elementsOf kind members) :
    ∃ name, innerName kind = some name ∧ e ∈ elementsUnder name members := by
  unfold elementsOf at h
  split at h
  · cases h
  · next name hname => exact ⟨name, hname, h⟩

namespace Item

theorem sizeOf_lt_of_mem_inner {item i : Item} (h : i ∈ item.inner) : sizeOf i < sizeOf item := by
  cases item with
  | row children flex =>
      have hsize := List.sizeOf_lt_of_mem (show i ∈ children from h)
      rw [row.sizeOf_spec]
      omega
  | iterator path rows conditions flex =>
      have hsize := List.sizeOf_lt_of_mem (show i ∈ rows from h)
      rw [iterator.sizeOf_spec]
      omega
  | _ => cases h

/-- Induction over what is nested. -/
theorem inner_induction {motive : Item → Prop}
    (step : ∀ item : Item, (∀ i ∈ item.inner, motive i) → motive item) (item : Item) :
    motive item :=
  step item fun i _ => inner_induction step i
termination_by sizeOf item
decreasing_by exact sizeOf_lt_of_mem_inner ‹_›

theorem ofItems_eq_ok_iff {es : List Value} {items : List Item} :
    ofItems es = .ok items ↔ List.Forall₂ (fun e item => ofValue e = .ok item) es items := by
  induction es generalizing items with
  | nil =>
      rw [ofItems, List.forall₂_nil_left_iff]
      constructor
      · intro h
        cases h
        rfl
      · rintro rfl
        rfl
  | cons e es ih =>
      rw [ofItems, List.forall₂_cons_left_iff]
      constructor
      · intro h
        obtain ⟨item, hitem, h⟩ := bind_eq_ok h
        obtain ⟨rest, hrest, h⟩ := bind_eq_ok h
        cases h
        exact ⟨item, rest, hitem, ih.1 hrest, rfl⟩
      · rintro ⟨item, rest, hitem, hrest, rfl⟩
        rw [hitem, ih.2 hrest]
        rfl

theorem exists_of_mem_items {es : List Value} {items : List Item} (h : ofItems es = .ok items)
    {item : Item} (hitem : item ∈ items) : ∃ e ∈ es, ofValue e = .ok item := by
  have hall := ofItems_eq_ok_iff.1 h
  clear h
  induction hall with
  | nil => cases hitem
  | @cons e i es items hhead _ ih =>
      rcases List.mem_cons.1 hitem with rfl | hitem
      · exact ⟨e, List.mem_cons_self, hhead⟩
      · obtain ⟨d, hd, hvalue⟩ := ih hitem
        exact ⟨d, List.mem_cons_of_mem _ hd, hvalue⟩

theorem exists_item_of_mem {es : List Value} {items : List Item} (h : ofItems es = .ok items)
    {e : Value} (he : e ∈ es) : ∃ item ∈ items, ofValue e = .ok item := by
  have hall := ofItems_eq_ok_iff.1 h
  clear h
  induction hall with
  | nil => cases he
  | @cons d i es items hhead _ ih =>
      rcases List.mem_cons.1 he with rfl | he
      · exact ⟨i, List.mem_cons_self, hhead⟩
      · obtain ⟨j, hj, hvalue⟩ := ih he
        exact ⟨j, List.mem_cons_of_mem _ hj, hvalue⟩

theorem ofNoList_eq_ok {v : Value} {items : List Item} (h : ofNoList v = .ok items) :
    items = [] := by
  unfold ofNoList at h
  split at h
  · cases h
  · cases h
    rfl
  · cases h

/-- What is accepted under a name is a list of elements that are. -/
theorem ofItems_elementsUnder {name : String} {members : Members} {items : List Item}
    (h : listUnder name members = .ok items) : ofItems (elementsUnder name members) = .ok items := by
  by_cases hlist : HoldsList name members
  · rwa [listUnder_of_holdsList hlist] at h
  · simp only [HoldsList, not_forall] at hlist
    obtain ⟨v, hget, htruthy, hno⟩ := hlist
    rw [listUnder_eq, hget] at h
    simp only [if_pos htruthy] at h
    rw [elementsUnder, hget]
    -- No list, so nothing is in it.
    cases v with
    | list es => exact (hno ⟨es, .inl rfl⟩).elim
    | tuple es => exact (hno ⟨es, .inr rfl⟩).elim
    | _ =>
        simp only [listOf] at h
        rw [ofNoList_eq_ok h]
        rfl

theorem conditionsOf_eq_ok {members : Members} {v : Value}
    (h : conditionsOf members = .ok (some v)) :
    members.get? "conditions" = some v ∧ v ≠ .null ∧ Json.fault? true v = none := by
  unfold conditionsOf at h
  split at h
  · cases h
  · next hnull =>
    split at h
    · next hfault =>
      cases h
      refine ⟨?_, hnull, hfault⟩
      cases hget : members.get? "conditions" with
      | none =>
          rw [Value.getOrNull, hget] at hnull
          exact (hnull rfl).elim
      | some w =>
          rw [Value.getOrNull, hget, Option.getD_some]
    · cases h

theorem forall_conditions {item : Item} (h : item.conditions = none) {p : Value → Prop} :
    ∀ v, item.conditions = some v → p v := by
  intro v hv
  rw [h] at hv
  cases hv

/-- The texts of an element that is accepted can be written. -/
theorem hasTexts_of_ofValue {members : Members} {kind : Kind} {item : Item}
    (hkind : Kind.ofType? (Value.getOrNull "type" members) = some kind)
    (h : ofValue (.map members) = .ok item) : HasTexts kind members := by
  rw [ofValue_of_kind hkind] at h
  obtain ⟨_, hcheck, -⟩ := bind_eq_ok h
  exact checkTexts_eq_ok_iff.1 hcheck

/-- An element that is accepted is a map with a known type. The elements inside it are accepted, its
item is settled, and the conditions of the item are those of the map. -/
theorem of_ofValue_eq_ok {e : Value} {item : Item} (h : ofValue e = .ok item) :
    ∃ members, e = .map members ∧
      Kind.ofType? (Value.getOrNull "type" members) = some item.kind ∧
      ofItems (elementsOf item.kind members) = .ok item.inner ∧ item.Settled ∧
      ∀ v, item.conditions = some v → ConditionsIn e v := by
  cases e with
  | map members =>
      refine ⟨members, rfl, ?_⟩
      cases hkind : Kind.ofType? (Value.getOrNull "type" members) with
      | none =>
          rw [ofValue, hkind] at h
          cases h
      | some kind =>
          rw [ofValue_of_kind hkind] at h
          obtain ⟨_, -, h⟩ := bind_eq_ok h
          cases kind with
          | text =>
              obtain ⟨flex, -, h⟩ := bind_eq_ok h
              cases h
              refine ⟨rfl, rfl, ⟨textUnder?_getD_ne_empty (by decide), ?_⟩, forall_conditions rfl⟩
              exact fun hstyle => textUnder?_ne_empty hstyle rfl
          | picture =>
              obtain ⟨flex, -, h⟩ := bind_eq_ok h
              cases h
              exact ⟨rfl, rfl, trivial, forall_conditions rfl⟩
          | barcode =>
              obtain ⟨flex, -, h⟩ := bind_eq_ok h
              cases h
              exact ⟨rfl, rfl, trivial, forall_conditions rfl⟩
          | pageBreak =>
              cases h
              exact ⟨rfl, rfl, trivial, forall_conditions rfl⟩
          | horizontalLine =>
              cases h
              exact ⟨rfl, rfl, trivial, forall_conditions rfl⟩
          | row =>
              obtain ⟨children, hchildren, h⟩ := bind_eq_ok h
              obtain ⟨flex, -, h⟩ := bind_eq_ok h
              cases h
              exact ⟨rfl, ofItems_elementsUnder hchildren, trivial, forall_conditions rfl⟩
          | sectionRef =>
              obtain ⟨flex, -, h⟩ := bind_eq_ok h
              cases h
              exact ⟨rfl, rfl, trivial, forall_conditions rfl⟩
          | iterator =>
              obtain ⟨rows, hrows, h⟩ := bind_eq_ok h
              obtain ⟨conditions, hconditions, h⟩ := bind_eq_ok h
              obtain ⟨flex, -, h⟩ := bind_eq_ok h
              cases h
              refine ⟨rfl, ofItems_elementsUnder hrows, ?_, ?_⟩
              · rintro v rfl
                exact (conditionsOf_eq_ok hconditions).2
              · rintro v rfl
                exact .own hkind (conditionsOf_eq_ok hconditions).1
  | _ => cases h

theorem Settled.fault? {item : Item} (h : item.Settled) {v : Value}
    (hv : item.conditions = some v) : Json.fault? true v = none := by
  cases item with
  | iterator path rows conditions flex => exact (h v hv).2
  | _ => cases hv

/-- The conditions of an item are read from their text, though not always as they were. -/
def ConditionsRead (item : Item) : Prop :=
  ∀ v, item.conditions = some v → ∃ w, Json.read? (Json.write .line v).toList = .ok w

theorem every_conditionsRead {e : Value} {item : Item} (h : ofValue e = .ok item)
    (hnumbers : ∀ v, ConditionsIn e v → Json.IsBinary64 v) : item.Every ConditionsRead := by
  induction item using inner_induction generalizing e with
  | step item ih =>
      obtain ⟨members, rfl, hkind, hinner, hsettled, hconditions⟩ := of_ofValue_eq_ok h
      constructor
      · intro v hv
        exact Json.exists_read?_write (hsettled.fault? hv) (hnumbers v (hconditions v hv))
      · intro i hi
        obtain ⟨d, hd, hvalue⟩ := exists_of_mem_items hinner hi
        refine ih i hi hvalue fun v hv => hnumbers v ?_
        obtain ⟨name, hname, hd⟩ := exists_name_of_mem_elementsOf hd
        exact .inside hkind hname hd hv

end Item

end Receipt.Codec
