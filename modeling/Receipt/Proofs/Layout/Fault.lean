import Receipt.Proofs.Layout.Row
import Receipt.Proofs.Value.Literal

/-!
# The places of a configuration

At some places of a configuration a registry, a section, a list of rows, a row or a name is
expected, and there may stand any value. Places lie inside each other, and only those are looked into
that hold what is expected. A registry is read exactly if nothing else stands at any of its places,
and fails as the first place says that does hold something else: `Registry.failure?_ofValue`.
-/
namespace Receipt
namespace Layout

/-- A place and what stands there. -/
inductive Place where
  | registry (v : Value)
  | layout (v : Value)
  | rows (v : Value)
  | row (v : Value)
  /-- The path of an iterator, or the section that a row refers to. -/
  | name (v : Value)
  /-- The key of a section that is null. -/
  | undeclared (key : Key)

namespace Place

/-- What is wrong at a place. A value that counts as empty is no fault where a section or a list of
rows is expected, and any value is a name that can be written. -/
def fault? : Place → Option Error
  | .registry (.map _) => none
  | .registry _ => some .registryNotMap
  | .layout (.map _) | .layout (.list _) => none
  | .layout v => if v.truthy then some .sectionNotMap else none
  | .rows v => if v.truthy && v.walk?.isNone then some .rowsNotList else none
  | .row (.map _) => none
  | .row v => some (.rowNotMap v.kindName)
  | .name v => if v.fits then none else some (.unwritable .tooLong)
  | .undeclared key => if key.fits then none else some (.unwritable .tooLong)

mutual
/-- The places at and inside a row, in the order in which they are read. -/
def ofRow : Value → List Place
  | .map members =>
    let type := Value.getOrNull "type" members
    .row (.map members) ::
      if type.isText "row" then under "children" members
      else if type.isText "iterator" then
        .name (Value.getOrNull "path" members) :: under "rows" members
      else if type.isText "sectionref" then [.name (Value.getOrNull "ref" members)]
      else []
  | v => [.row v]

/-- The places at and inside the rows under a name. -/
def under (name : String) : List (Key × Value) → List Place
  | [] => []
  | (key, v) :: rest => if key = .text name then ofRows v else under name rest

/-- The places at and inside a list of rows. What is met in a value that is no list is no row. -/
def ofRows : Value → List Place
  | .list items => .rows (.list items) :: ofItems items
  | .tuple items => .rows (.tuple items) :: ofItems items
  | v => .rows v :: (v.walk?.getD []).map .row

def ofItems : List Value → List Place
  | [] => []
  | v :: vs => ofRow v ++ ofItems vs
end

/-- The places at and inside a section. -/
def ofLayout : Value → List Place
  | .list items => .layout (.list items) :: ofItems items
  | .map members => .layout (.map members) :: under "rows" members
  | v => [.layout v]

/-- The places inside a registry; of a section that is null only the key is looked at. -/
def ofMembers : Members → List Place
  | [] => []
  | (key, .null) :: rest => .undeclared key :: ofMembers rest
  | (_, v) :: rest => ofLayout v ++ ofMembers rest

/-- The places at and inside a registry. -/
def ofRegistry : Value → List Place
  | .map members => .registry (.map members) :: ofMembers members
  | v => [.registry v]

end Place

/-- The first fault at some places. -/
def firstFault (places : List Place) : Option Error := places.findSome? Place.fault?

theorem firstFault_cons (place : Place) (places : List Place) :
    firstFault (place :: places) = place.fault?.or (firstFault places) := by
  rw [firstFault, List.findSome?_cons]
  cases place.fault? <;> rfl

theorem firstFault_append (places more : List Place) :
    firstFault (places ++ more) = (firstFault places).or (firstFault more) :=
  List.findSome?_append

end Layout

namespace Row
open Layout Layout.Place

section NoList

variable {v : Value}

/-- What is met in a value that is no list is a key or a character. -/
theorem fault?_row_of_mem_walk? (hlist : ∀ items, v ≠ .list items) (htuple : ∀ items, v ≠ .tuple items)
    {items : List Value} (hwalk : v.walk? = some items) {item : Value} (hitem : item ∈ items) :
    (Place.row item).fault? = some (.rowNotMap item.kindName) := by
  cases v with
  | list items => exact absurd rfl (hlist items)
  | tuple items => exact absurd rfl (htuple items)
  | map members =>
      cases hwalk
      obtain ⟨⟨key, -⟩, -, rfl⟩ := List.mem_map.1 hitem
      cases key <;> rfl
  | text s =>
      cases hwalk
      obtain ⟨c, -, rfl⟩ := List.mem_map.1 hitem
      rfl
  | unresolved s =>
      cases hwalk
      obtain ⟨c, -, rfl⟩ := List.mem_map.1 hitem
      rfl
  | _ => cases hwalk

/-- Nothing is met in a value that counts as empty. -/
theorem walk?_of_not_truthy (h : v.truthy = false) : v.walk?.getD [] = [] := by
  cases v with
  | text s | unresolved s =>
      obtain rfl : s = "" := by simpa [Value.truthy] using h
      rfl
  | list items | tuple items | map items =>
      obtain rfl : items = [] := by simpa [Value.truthy] using h
      rfl
  | _ => rfl

theorem failure?_ofNoList (hlist : ∀ items, v ≠ .list items) (htuple : ∀ items, v ≠ .tuple items) :
    failure? (ofNoList v) = firstFault (.rows v :: (v.walk?.getD []).map .row) := by
  rw [firstFault_cons, fault?, ofNoList]
  cases htruthy : v.truthy with
  | false =>
      rw [walk?_of_not_truthy htruthy]
      rfl
  | true =>
      cases hwalk : v.walk? with
      | none => rfl
      | some items =>
          cases items with
          | nil => rfl
          | cons first rest =>
              have hfirst := fault?_row_of_mem_walk? hlist htuple hwalk List.mem_cons_self
              rw [Option.getD_some, List.map_cons, firstFault_cons, hfirst]
              rfl

end NoList

theorem failure?_nameOf (v : Value) : failure? (nameOf v) = (Place.name v).fault? := by
  rw [nameOf, fault?]
  cases htruthy : v.truthy with
  | false =>
      rw [Value.fits_of_not_truthy htruthy]
      rfl
  | true =>
      rw [Value.word]
      cases v.fits <;> rfl

mutual
/-- A row fails as the first fault at or inside it says, and so do rows under a name, the rows of a
value, and rows in order. -/
theorem failure?_ofValue : ∀ v : Value, failure? (ofValue v) = firstFault (ofRow v)
  | .map members => by
      have hchildren := failure?_listUnder "children" members
      have hrows := failure?_listUnder "rows" members
      rw [ofRow, firstFault_cons]
      rcases ofValue_map_cases members with
        ⟨hrow, heq⟩ | ⟨hrow, hiterator, heq⟩ | ⟨hrow, hiterator, hreference, heq⟩ |
          ⟨hrow, hiterator, hreference, row, heq, -, -⟩
      · rw [heq, failure?_map, hchildren, if_pos hrow]
        rfl
      · rw [heq, failure?_sequence, failure?_nameOf, hrows, hrow, if_pos hiterator,
          if_neg Bool.false_ne_true, firstFault_cons]
        rfl
      · rw [heq, failure?_map, failure?_nameOf, hrow, hiterator, if_pos hreference,
          if_neg Bool.false_ne_true, if_neg Bool.false_ne_true, firstFault_cons]
        exact (Option.or_none ..).symm
      · rw [heq, hrow, hiterator, hreference]
        rfl
  | .null | .missing | .bool _ | .int _ | .double _ | .text _ | .unresolved _ | .date _ | .moment _
  | .list _ | .tuple _ => rfl

theorem failure?_listUnder (name : String) :
    ∀ members : List (Key × Value), failure? (listUnder name members) = firstFault (under name members)
  | [] => rfl
  | (key, v) :: rest => by
      rw [listUnder, under]
      split
      · exact failure?_listOf v
      · exact failure?_listUnder name rest

theorem failure?_listOf : ∀ v : Value, failure? (listOf v) = firstFault (ofRows v)
  | .list items | .tuple items => by
      rw [listOf, ofRows, firstFault_cons, failure?_ofItems items, fault?, Value.walk?,
        Option.isNone_some, Bool.and_false]
      rfl
  | .null | .missing | .bool _ | .int _ | .double _ | .text _ | .unresolved _ | .date _ | .moment _
  | .map _ => failure?_ofNoList nofun nofun

theorem failure?_ofItems : ∀ vs : List Value, failure? (ofItems vs) = firstFault (Place.ofItems vs)
  | [] => rfl
  | v :: vs => by
      rw [ofItems, Place.ofItems, firstFault_append, ← failure?_ofValue v, ← failure?_ofItems vs]
      exact failure?_sequence _
end

end Row

namespace Layout

theorem failure?_ofValue (v : Value) (name : Option String) :
    failure? (Layout.ofValue v name) = firstFault (Place.ofLayout v) := by
  cases v with
  | list items => exact (failure?_map _).trans (Row.failure?_ofItems items)
  | map members => exact (failure?_map _).trans (Row.failure?_listUnder "rows" members)
  | _ =>
      rw [Layout.ofValue, Place.ofLayout, firstFault_cons, Place.fault?]
      · split <;> rfl
      all_goals (intro _ hmap; cases hmap)

end Layout

namespace Registry
open Layout

theorem failure?_ofMembers (members : Members) :
    failure? (ofMembers members) = firstFault (Place.ofMembers members) := by
  fun_induction ofMembers members with
  | case1 => rfl
  | case2 key rest ih =>
      rw [Place.ofMembers, firstFault_cons, Place.fault?, Key.word, ← ih]
      cases key.fits <;> rfl
  | case3 key v rest hnull ih =>
      rw [Place.ofMembers, firstFault_append, ← ih, ← Layout.failure?_ofValue v (keyName key)]
      · exact failure?_sequence _
      · exact hnull

/-- A registry is read if no place in it has a fault, and fails as the first fault says. -/
theorem failure?_ofValue (v : Value) :
    failure? (ofValue v) = firstFault (Place.ofRegistry v) := by
  cases v with
  | map members => exact failure?_ofMembers members
  | _ => rfl

end Registry
end Receipt
