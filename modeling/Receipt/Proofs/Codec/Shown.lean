import Receipt.Proofs.Codec.RoundTrip
import Receipt.Proofs.Number.Limit

/-!
# What is read can be shown

The map of an item that can be read back is JSON: `Item.fault?_toValue`. Its conditions have no fault,
and the share of the width is a number that the format can hold, which has few digits.
-/
namespace Receipt

namespace Json

theorem membersFault?_append {strict : Bool} (members more : Members) :
    membersFault? strict (members ++ more) =
      (membersFault? strict members).or (membersFault? strict more) := by
  induction members with
  | nil => rfl
  | cons member members ih =>
      obtain ⟨key, v⟩ := member
      rw [List.cons_append, membersFault?, membersFault?, ih, ← Option.or_assoc]

end Json

namespace Codec

theorem fits_of_lt_limit {n : Nat} (h : n < Varint.limit) : Number.fits n = true := by
  have hlimit : Varint.limit ≤ 10 ^ 13 := by decide
  have hmore : 10 ^ 13 ≤ 10 ^ Number.digitLimit := Nat.pow_le_pow_right (by decide) (by decide)
  rw [Number.fits_iff, Int.natAbs_natCast]
  exact Nat.lt_of_lt_of_le h (Nat.le_trans hlimit hmore)

namespace Item

theorem membersFault?_optional (name : String) {v : Option Value}
    (h : ∀ w, v = some w → Json.fault? true w = none) :
    Json.membersFault? true (optional name v) = none := by
  cases v with
  | none => rfl
  | some w =>
      rw [optional, Json.membersFault?, h w rfl]
      rfl

theorem membersFault?_flexMember {flex : Option Nat} (h : ∀ n, flex = some n → n < Varint.limit) :
    Json.membersFault? true (flexMember flex) = none := by
  refine membersFault?_optional _ fun w hw => ?_
  cases flex with
  | none => cases hw
  | some n =>
      cases hw
      exact if_pos (fits_of_lt_limit (h n rfl))

theorem itemsFault?_toValues {items : List Item}
    (h : ∀ i ∈ items, Json.fault? true i.toValue = none) :
    Json.itemsFault? true (toValues items) = none := by
  induction items with
  | nil => rfl
  | cons i items ih =>
      have hhead : Json.fault? true (.map i.members) = none := h i List.mem_cons_self
      rw [toValues, Json.itemsFault?, hhead, ih fun j hj => h j (List.mem_cons_of_mem _ hj)]
      rfl

theorem fault?_toValue {item : Item} (h : item.Every fun i => i.Readable ∧ i.Settled) :
    Json.fault? true item.toValue = none := by
  induction h with
  | @intro item hitem _ ih =>
      have htext (s : String) : Json.fault? true (.text s) = none := rfl
      have hkey (s : String) : Json.keyFault? (.text s) = none := rfl
      rw [toValue, Json.fault?]
      cases item with
      | text t align style flex =>
          have hstyle := membersFault?_optional "style" (v := style.map .text) (by
            intro w hw
            obtain ⟨s, -, rfl⟩ := Option.map_eq_some_iff.1 hw
            rfl)
          simp [members, Json.membersFault?_append, Json.membersFault?, htext, hkey, hstyle,
            membersFault?_flexMember hitem.1.2]
      | picture url flex | sectionRef ref flex | barcode code barcodeType flex =>
          simp [members, Json.membersFault?, htext, hkey, membersFault?_flexMember hitem.1]
      | pageBreak | horizontalLine => rfl
      | row children flex =>
          have hchildren : Json.itemsFault? true (toValues children) = none :=
            itemsFault?_toValues ih
          simp [members, Json.membersFault?, hkey, Json.fault?, hchildren,
            membersFault?_flexMember hitem.1]
      | iterator path rows conditions flex =>
          have hrows : Json.itemsFault? true (toValues rows) = none := itemsFault?_toValues ih
          have hconditions := membersFault?_optional "conditions" fun v hv =>
            (hitem.2 v hv).2
          simp [members, Json.membersFault?_append, Json.membersFault?, hkey, Json.fault?, hrows,
            hconditions, membersFault?_flexMember hitem.1.2]

end Item
end Codec
end Receipt
