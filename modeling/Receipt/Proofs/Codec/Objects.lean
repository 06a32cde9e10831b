import Receipt.Proofs.Codec.Elements

/-!
# Elements that are read from bytes

The maps that are read from bytes are those of items, whatever the bytes. An item describes an
element, `Item.toElement`, and the element has the map of the item: its kinds of elements keep every
member, and the other kinds are passed through. So reading elements and writing them as maps gives
the maps that are read, and it fails where reading maps does: `decodeElements_eq`,
`map_toValues_decodeElements`.
-/
namespace Receipt.Codec

namespace Item

/-- A member that may be absent, as a value. -/
def flexValue (flex : Option Nat) : Value := (flex.map fun n => .int n).getD .null

def styleValue (style : Option String) : Value := (style.map .text).getD .null

mutual
/-- The element that an item describes. -/
def toElement : Item → Element
  | .text t align style flex => .text (.text t) (.text align) (flexValue flex) (styleValue style)
  | .barcode code barcodeType flex =>
    .barcode (.text code) (.text barcodeType) (flexValue flex)
  | .row children flex => .row (toElements children) (flexValue flex)
  | item => .passthrough item.members

def toElements : List Item → List Element
  | [] => []
  | item :: items => item.toElement :: toElements items
end

theorem toElements_eq_map (items : List Item) : toElements items = items.map toElement := by
  induction items with
  | nil => rfl
  | cons item items ih => rw [toElements, ih, List.map_cons]

theorem toValues_toElements {items : List Item}
    (h : ∀ i ∈ items, i.toElement.toValue = i.toValue) :
    Element.toValues (toElements items) = toValues items := by
  rw [Element.toValues_eq_map, toElements_eq_map, toValues_eq_map, List.map_map]
  exact List.map_congr_left h

/-- The element has the map of the item. -/
theorem toValue_toElement (item : Item) : item.toElement.toValue = item.toValue := by
  induction item using inner_induction with
  | step item ih =>
      cases item with
      | text t align style flex => cases style <;> cases flex <;> rfl
      | barcode code barcodeType flex => cases flex <;> rfl
      | row children flex =>
          have hchildren : Element.toValues (toElements children) = toValues children :=
            toValues_toElements ih
          rw [toElement, Element.toValue, Element.members, hchildren]
          cases flex <;> rfl
      | _ => rfl

theorem hasType_members (item : Item) : item.members.HasType item.kind.name := by
  cases item <;> (rw [members]; rfl)

/-- A map that is passed through is not taken for another kind of element. -/
theorem isRestorable_passthrough {item : Item} (kind : Kind) (hkind : item.kind = kind)
    (h : kind.name ∉ ["text", "barcode", "row"]) :
    Element.IsRestorable (.passthrough item.members) := by
  intro name hname htype
  rw [eq_of_hasType htype item.hasType_members, hkind] at hname
  exact h hname

theorem every_isRestorable (item : Item) : item.toElement.Every Element.IsRestorable := by
  induction item using inner_induction with
  | step item ih =>
      cases item with
      | text t align style flex => exact .intro nofun nofun
      | barcode code barcodeType flex => exact .intro nofun nofun
      | row children flex =>
          rw [toElement, toElements_eq_map]
          refine .intro trivial fun c hc => ?_
          obtain ⟨i, hi, rfl⟩ := List.mem_map.1 hc
          exact ih i hi
      | picture url flex =>
          exact .intro (isRestorable_passthrough .picture rfl (by decide)) nofun
      | pageBreak =>
          exact .intro (isRestorable_passthrough .pageBreak rfl (by decide)) nofun
      | horizontalLine =>
          exact .intro (isRestorable_passthrough .horizontalLine rfl (by decide)) nofun
      | sectionRef ref flex =>
          exact .intro (isRestorable_passthrough .sectionRef rfl (by decide)) nofun
      | iterator path rows conditions flex =>
          exact .intro (isRestorable_passthrough .iterator rfl (by decide)) nofun

theorem element_ofItems_toValues (items : List Item) :
    Element.ofItems (toValues items) = .ok (toElements items) := by
  rw [← toValues_toElements fun i _ => i.toValue_toElement]
  refine Element.ofItems_toValues fun e he => ?_
  rw [toElements_eq_map] at he
  obtain ⟨i, -, rfl⟩ := List.mem_map.1 he
  exact Element.ofValue_toValue i.every_isRestorable

end Item

/-- What is read are the elements of items. -/
theorem decodeElements_eq (bytes : List UInt8) :
    decodeElements bytes = ((decode bytes).map Item.toElements).mapError (.text ∘ .format) := by
  rw [decodeElements, decodeValues]
  cases decode bytes with
  | error e => rfl
  | ok items =>
      show (Element.ofItems (Item.toValues items)).mapError ElementsError.element = _
      rw [Item.element_ofItems_toValues]
      rfl

/-- Elements are read from the bytes from which maps are read, and are written as these maps. -/
theorem map_toValues_decodeElements (bytes : List UInt8) :
    (decodeElements bytes).map Element.toValues =
      (decodeValues bytes).mapError (.text ∘ .format) := by
  rw [decodeElements_eq, decodeValues]
  cases decode bytes with
  | error e => rfl
  | ok items =>
      exact congrArg Except.ok (Item.toValues_toElements fun i _ => i.toValue_toElement)

end Receipt.Codec
