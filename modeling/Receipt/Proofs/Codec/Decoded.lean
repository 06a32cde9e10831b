import Receipt.Proofs.Codec.RoundTrip
import Receipt.Proofs.Json.Reader

/-!
# What is read can be encoded again

Whatever the bytes, the items in them can be encoded, and their numbers are small enough to be read
back, `every_of_decodeBody`; the induction is on the length of the bytes, which falls from an item
to those inside it. Encoding the maps of such items loses nothing but empty styles and conditions
that are null, and `tidy` says so on maps, `toValue_settle`. So what was read is encoded again and
read back tidied, `decodeValues_again`.
-/
namespace Receipt.Codec

namespace Item

/-- What every item has that is read from bytes. -/
def Decoded (item : Item) : Prop :=
  item.Encodable ∧ ∀ n, item.flex = some n → n < Varint.limit

theorem fieldFlex?_lt {fields : List Chunk} {flex : Option Nat}
    (h : fieldFlex? fields = some flex) : ∀ n, flex = some n → n < Varint.limit := by
  unfold fieldFlex? at h
  split at h
  · cases h
    exact nofun
  · split at h
    · next n rest hread =>
      cases h
      rintro m ⟨⟩
      exact Varint.read_lt_limit hread
    · cases h

theorem fieldAlign_ne_empty (fields : List Chunk) : fieldAlign fields ≠ "" := by
  unfold fieldAlign
  split
  · decide
  · next hempty => exact hempty

theorem fault?_of_fieldConditions? {fields : List Chunk} {conditions : Option Value}
    (h : fieldConditions? fields = some conditions) :
    ∀ v, conditions = some v → Json.fault? true v = none := by
  unfold fieldConditions? at h
  split at h
  · cases h
    exact nofun
  · split at h
    · next v hread =>
      cases h
      rintro w ⟨⟩
      exact Json.fault?_of_read? hread
    · cases h

/-- An item that is made of fields can be encoded, and the items inside it are those given. -/
theorem of_ofFields? {kind : Kind} {fields : List Chunk} {items : List Item} {item : Item}
    (h : ofFields? kind fields items = some item) :
    item.Decoded ∧ ∀ i ∈ item.inner, i ∈ items := by
  obtain ⟨flex, hflex, h⟩ := Option.bind_eq_some_iff.1 h
  have hrange := fieldFlex?_lt hflex
  cases kind with
  | text =>
      cases h
      exact ⟨⟨fieldAlign_ne_empty fields, hrange⟩, nofun⟩
  | picture =>
      cases h
      exact ⟨⟨trivial, hrange⟩, nofun⟩
  | barcode =>
      cases h
      exact ⟨⟨trivial, hrange⟩, nofun⟩
  | pageBreak =>
      cases h
      exact ⟨⟨trivial, nofun⟩, nofun⟩
  | horizontalLine =>
      cases h
      exact ⟨⟨trivial, nofun⟩, nofun⟩
  | row =>
      cases h
      exact ⟨⟨trivial, hrange⟩, fun i hi => hi⟩
  | sectionRef =>
      cases h
      exact ⟨⟨trivial, hrange⟩, nofun⟩
  | iterator =>
      obtain ⟨conditions, hconditions, h⟩ := Option.bind_eq_some_iff.1 h
      cases h
      exact ⟨⟨fault?_of_fieldConditions? hconditions, hrange⟩, fun i hi => hi⟩

/-- An item inside is read from a shorter body. -/
theorem exists_body_of_innerItems? {kind : Kind} {body : List UInt8} {fields : List Chunk}
    {items : List Item} (hfields : Chunk.fields body = .ok fields)
    (h : innerItems? kind fields = some items) {i : Item} (hi : i ∈ items) :
    ∃ tag shorter, shorter.length < body.length ∧ decodeBody tag shorter = some i := by
  unfold innerItems? at h
  split at h
  · cases h
    cases hi
  · next bytes hnested =>
    have hlist := toOption_eq_some h
    rw [decodeList_eq] at hlist
    obtain ⟨chunks, hframes, rfl⟩ := map_eq_ok hlist
    obtain ⟨c, hc, hitem⟩ := List.mem_flatMap.1 hi
    refine ⟨c.tag, c.body, ?_, Option.mem_toList.1 hitem⟩
    exact Nat.lt_trans (length_body_lt_of_frames hframes c hc) (nested?_lt hfields hnested)

theorem code_of_ofCode? {tag : Nat} {kind : Kind} (h : Kind.ofCode? tag = some kind) :
    kind.code = tag := by
  rw [Kind.ofCode?] at h
  have hfound := List.find?_some h
  exact of_decide_eq_true hfound

theorem of_decodeBody {tag : Nat} {body : List UInt8} {item : Item}
    (h : decodeBody tag body = some item) :
    item.Decoded ∧ ∀ i ∈ item.inner,
      ∃ tag shorter, shorter.length < body.length ∧ decodeBody tag shorter = some i := by
  cases hkind : Kind.ofCode? tag with
  | none =>
      rw [decodeBody, hkind] at h
      cases h
  | some kind =>
      rw [← code_of_ofCode? hkind] at h
      by_cases hfieldsOf : HasFields kind
      · rw [decodeBody_eq hfieldsOf] at h
        obtain ⟨fields, hfields, h⟩ := Option.bind_eq_some_iff.1 h
        obtain ⟨items, hitems, h⟩ := Option.bind_eq_some_iff.1 h
        obtain ⟨hdecoded, hinner⟩ := of_ofFields? h
        refine ⟨hdecoded, fun i hi => ?_⟩
        exact exists_body_of_innerItems? (toOption_eq_some hfields) hitems (hinner i hi)
      · rw [decodeBody_of_not_hasFields hfieldsOf] at h
        obtain ⟨hdecoded, hinner⟩ := of_ofFields? h
        refine ⟨hdecoded, fun i hi => ?_⟩
        cases hinner i hi

/-- Every item that is read can be encoded, and so can all items inside it. -/
theorem every_of_decodeBody {tag : Nat} {body : List UInt8} {item : Item}
    (h : decodeBody tag body = some item) : item.Every Decoded := by
  induction hlength : body.length using Nat.strongRecOn generalizing tag body item with
  | ind n ih =>
      obtain ⟨hdecoded, hinner⟩ := of_decodeBody h
      refine .intro hdecoded fun i hi => ?_
      obtain ⟨tag, shorter, hlt, hitem⟩ := hinner i hi
      exact ih shorter.length (hlength ▸ hlt) hitem rfl

end Item

theorem exists_items_of_decodeValues {bytes : List UInt8} {values : List Value}
    (h : decodeValues bytes = .ok values) :
    ∃ items, values = Item.toValues items ∧ ∀ i ∈ items, i.Every Item.Decoded := by
  obtain ⟨rest, chunks, -, -, rfl⟩ := of_decodeValues_eq_ok h
  refine ⟨itemsOf chunks, (toValues_itemsOf chunks).symm, fun i hi => ?_⟩
  obtain ⟨c, -, hitem⟩ := List.mem_flatMap.1 hi
  exact Item.every_of_decodeBody (Option.mem_toList.1 hitem)

/-- Whether an element of a kind loses a member: a text an empty style, and an iterator conditions
that are null. -/
def isDropped (kind : Kind) (key : Key) (v : Value) : Bool :=
  match kind, v with
  | .text, .text s => key = .text "style" && s = ""
  | .iterator, .null => key = .text "conditions"
  | _, _ => false

mutual
/-- The element without what is dropped, at every depth. -/
def tidy : Value → Value
  | .map members =>
    match Kind.ofType? (Value.getOrNull "type" members) with
    | none => .map members
    | some kind => .map (tidyMembers kind members)
  | v => v

def tidyMembers (kind : Kind) : List (Key × Value) → Members
  | [] => []
  | (key, v) :: rest =>
    if isDropped kind key v then tidyMembers kind rest
    else if (innerName kind).map .text = some key then (key, tidyList v) :: tidyMembers kind rest
    else (key, v) :: tidyMembers kind rest

def tidyList : Value → Value
  | .list items => .list (tidyItems items)
  | v => v

def tidyItems : List Value → List Value
  | [] => []
  | v :: vs => tidy v :: tidyItems vs
end

theorem tidyItems_eq_map (vs : List Value) : tidyItems vs = vs.map tidy := by
  induction vs with
  | nil => rfl
  | cons v vs ih => rw [tidyItems, ih, List.map_cons]

theorem tidyMembers_append (kind : Kind) (first second : Members) :
    tidyMembers kind (first ++ second) = tidyMembers kind first ++ tidyMembers kind second := by
  induction first with
  | nil => rfl
  | cons member first ih =>
      obtain ⟨key, v⟩ := member
      rw [List.cons_append, tidyMembers, tidyMembers, ih]
      split
      · rfl
      · split <;> rfl

namespace Item

theorem tidyMembers_flexMember (kind : Kind) (flex : Option Nat) :
    tidyMembers kind (flexMember flex) = flexMember flex := by
  cases kind <;> cases flex <;> rfl

theorem tidyMembers_style (style : Option String) :
    tidyMembers .text (optional "style" (style.map .text)) =
      optional "style" ((style.filter fun s => s ≠ "").map .text) := by
  cases style with
  | none => rfl
  | some s =>
      by_cases hs : s = ""
      · rw [hs]
        rfl
      · have hkept : isDropped .text (.text "style") (.text s) = false := by
          simp only [isDropped, hs, decide_false, Bool.and_false]
        rw [Option.filter_some, if_pos (decide_eq_true hs), Option.map_some, optional, tidyMembers,
          hkept]
        rfl

theorem tidyMembers_conditions (conditions : Option Value) :
    tidyMembers .iterator (optional "conditions" conditions) =
      optional "conditions" (nonNull? conditions) := by
  cases conditions with
  | none => rfl
  | some v => cases v <;> rfl

theorem toValues_settleAll {items : List Item}
    (h : ∀ i ∈ items, i.settle.toValue = tidy i.toValue) :
    toValues (settleAll items) = tidyItems (toValues items) := by
  rw [settleAll_eq_map, toValues_eq_map, toValues_eq_map, tidyItems_eq_map, List.map_map,
    List.map_map]
  exact List.map_congr_left h

/-- What an item loses is what its map is said to lose. -/
theorem toValue_settle {p : Item → Prop} {item : Item} (h : item.Every p) :
    item.settle.toValue = tidy item.toValue := by
  induction h with
  | @intro item _ _ ih =>
      rw [toValue, toValue, tidy, item.ofType?_members]
      cases item with
      | text t align style flex =>
          rw [settle, members, members]
          simp only [kind, tidyMembers_append, tidyMembers_style, tidyMembers_flexMember]
          rfl
      | picture url flex =>
          rw [settle, members]
          simp only [kind, tidyMembers_append, tidyMembers_flexMember]
          rfl
      | barcode code barcodeType flex =>
          rw [settle, members]
          simp only [kind, tidyMembers_append, tidyMembers_flexMember]
          rfl
      | pageBreak => rfl
      | horizontalLine => rfl
      | row children flex =>
          have hchildren : toValues (settleAll children) = tidyItems (toValues children) :=
            toValues_settleAll ih
          rw [settle, members, members]
          simp only [kind, tidyMembers_append, tidyMembers_flexMember, hchildren]
          rfl
      | sectionRef ref flex =>
          rw [settle, members]
          simp only [kind, tidyMembers_append, tidyMembers_flexMember]
          rfl
      | iterator path rows conditions flex =>
          have hrows : toValues (settleAll rows) = tidyItems (toValues rows) :=
            toValues_settleAll ih
          rw [settle, members, members]
          simp only [kind, tidyMembers_append, tidyMembers_conditions, tidyMembers_flexMember,
            hrows]
          rfl

theorem inner_settle (item : Item) : item.settle.inner = settleAll item.inner := by
  cases item <;> (rw [settle]; rfl)

theorem Every.settle {p q : Item → Prop} (hpq : ∀ item, p item → q item.settle) {item : Item}
    (h : item.Every p) : item.settle.Every q := by
  induction h with
  | @intro item hp _ ih =>
      refine .intro (hpq item hp) fun j hj => ?_
      rw [inner_settle, settleAll_eq_map] at hj
      obtain ⟨i, hi, rfl⟩ := List.mem_map.1 hj
      exact ih i hi

/-- The conditions of an item, which only iterators have. -/
def conditions : Item → Option Value
  | .iterator _ _ conditions _ => conditions
  | _ => none

theorem Decoded.readable_settle {item : Item} (h : item.Decoded)
    (hread : ∀ v, item.conditions = some v → Json.read? (Json.write .line v).toList = .ok v) :
    item.settle.Readable := by
  obtain ⟨hencodable, hrange⟩ := h
  cases item with
  | text t align style flex => exact ⟨hencodable, hrange⟩
  | picture url flex => exact hrange
  | barcode code barcodeType flex => exact hrange
  | pageBreak => trivial
  | horizontalLine => trivial
  | row children flex => exact hrange
  | sectionRef ref flex => exact hrange
  | iterator path rows conditions flex =>
      exact ⟨fun v hv => hread v (eq_some_of_nonNull? hv).1, hrange⟩

end Item

/-- A value that is the conditions of an iterator, the element itself or one inside it. -/
inductive ConditionsIn : Value → Value → Prop
  | own {members : Members} {v : Value} :
      Kind.ofType? (Value.getOrNull "type" members) = some .iterator →
      members.get? "conditions" = some v → ConditionsIn (.map members) v
  | inside {members : Members} {kind : Kind} {name : String} {e v : Value} :
      Kind.ofType? (Value.getOrNull "type" members) = some kind → innerName kind = some name →
      e ∈ elementsUnder name members → ConditionsIn e v → ConditionsIn (.map members) v

theorem not_conditionsIn {members : Members} {kind : Kind} {v : Value}
    (hkind : Kind.ofType? (Value.getOrNull "type" members) = some kind)
    (hinner : innerName kind = none) : ¬ ConditionsIn (.map members) v := by
  intro h
  cases h with
  | own hiterator _ =>
      rw [hiterator] at hkind
      cases hkind
      cases hinner
  | inside hother hname _ _ =>
      rw [hother] at hkind
      cases hkind
      rw [hinner] at hname
      cases hname

namespace Item

theorem conditionsIn_of_conditions {item : Item} {v : Value} (h : item.conditions = some v) :
    ConditionsIn item.toValue v := by
  cases item with
  | iterator path rows conditions flex =>
      cases h
      exact .own (ofType?_members _) rfl
  | _ => cases h

theorem conditionsIn_of_mem_inner {item i : Item} {v : Value} (hi : i ∈ item.inner)
    (h : ConditionsIn i.toValue v) : ConditionsIn item.toValue v := by
  have hmem : ∀ {items : List Item}, i ∈ items → i.toValue ∈ toValues items := by
    intro items hitems
    rw [toValues_eq_map]
    exact List.mem_map_of_mem hitems
  have hkind := item.ofType?_members
  cases item with
  | row children flex => exact .inside hkind rfl (hmem hi) h
  | iterator path rows conditions flex => exact .inside hkind rfl (hmem hi) h
  | _ => cases hi

theorem Every.conditions {p : Item → Prop} {q : Value → Prop} {item : Item} (h : item.Every p)
    (hq : ∀ v, ConditionsIn item.toValue v → q v) :
    item.Every fun i => p i ∧ ∀ v, i.conditions = some v → q v := by
  induction h with
  | @intro item hp _ ih =>
      constructor
      · exact ⟨hp, fun v hv => hq v (conditionsIn_of_conditions hv)⟩
      · intro i hi
        exact ih i hi fun v hv => hq v (conditionsIn_of_mem_inner hi hv)

end Item

/-- Whatever was read can be encoded again. If the lengths and numbers of it can be read, and its
conditions are read back from their JSON, it is read back tidied. -/
theorem decodeValues_again {bytes : List UInt8} {values : List Value}
    (h : decodeValues bytes = .ok values) :
    ∃ again, encodeValues (.list values) = .ok again ∧
      (Fits values →
        (∀ e ∈ values, ∀ v, ConditionsIn e v → Json.read? (Json.write .line v).toList = .ok v) →
        decodeValues again = .ok (values.map tidy)) := by
  obtain ⟨items, rfl, hdecoded⟩ := exists_items_of_decodeValues h
  have hvalue : ∀ i ∈ items, Item.ofValue i.toValue = .ok i.settle := fun i hi =>
    Item.ofValue_toValue_settle ((hdecoded i hi).mono fun _ hi => hi.1)
  have hitems := Item.ofItems_toValues_map hvalue
  refine ⟨encode (items.map Item.settle), encodeValues_of_ofItems hitems, ?_⟩
  rintro ⟨hcount, hfits⟩ hread
  rw [Item.toValues_eq_map] at hcount hfits hread ⊢
  have hreadable : ∀ i ∈ items.map Item.settle, i.Every Item.Readable := by
    intro j hj
    obtain ⟨i, hi, rfl⟩ := List.mem_map.1 hj
    have hconditions := (hdecoded i hi).conditions (hread i.toValue (List.mem_map_of_mem hi))
    exact hconditions.settle fun _ hi => hi.1.readable_settle hi.2
  have hlengths : ∀ i ∈ items.map Item.settle, i.chunk.body.length < Varint.limit := by
    intro j hj
    obtain ⟨i, hi, rfl⟩ := List.mem_map.1 hj
    exact hfits i.toValue (List.mem_map_of_mem hi) i.settle (hvalue i hi)
  have htidy : Item.toValues (items.map Item.settle) = (items.map Item.toValue).map tidy := by
    rw [← Item.settleAll_eq_map, Item.toValues_settleAll fun i hi =>
      Item.toValue_settle (hdecoded i hi), tidyItems_eq_map, Item.toValues_eq_map]
  rw [List.length_map] at hcount
  rw [decodeValues_encode hreadable (by rwa [List.length_map]) hlengths, htidy]

/-- A row around a text with an empty style, and an iterator whose conditions are null. -/
def looseItems : List Item :=
  [.row [.text "h" "left" (some "") none] none, .iterator "" [] (some .null) none]

/-- The bytes of the two, with a count that takes more bytes than it needs. -/
def looseBytes : List UInt8 :=
  header ++ ([0x82, 0] ++ (Item.chunks looseItems).flatMap Chunk.encode)

theorem looseItems_length_lt : ∀ i ∈ looseItems, i.chunk.body.length < Varint.limit := by
  intro i hi
  rcases List.mem_cons.1 hi with rfl | hi
  · cbv
  · rw [List.mem_singleton.1 hi]
    cbv

theorem looseItems_readable : ∀ i ∈ looseItems, i.Every Item.Readable := by
  intro i hi
  rcases List.mem_cons.1 hi with rfl | hi
  · refine .intro nofun fun j hj => ?_
    rw [List.mem_singleton.1 hj]
    exact .intro ⟨by decide, nofun⟩ nofun
  · rw [List.mem_singleton.1 hi]
    refine .intro ⟨?_, nofun⟩ nofun
    rintro v ⟨⟩
    rfl

theorem decodeValues_looseBytes : decodeValues looseBytes = .ok (Item.toValues looseItems) := by
  have hread := Chunk.readCount_encode (Item.fits_of_mem_chunks looseItems_length_lt) []
  rw [List.append_nil] at hread
  have hframes : frames ([0x82, 0] ++ (Item.chunks looseItems).flatMap Chunk.encode) =
      .ok (Item.chunks looseItems) := frames_eq_ok.2 ⟨_, _, rfl, hread⟩
  have hitems : itemsOf (Item.chunks looseItems) = looseItems := by
    rw [Item.itemsOf_chunks, Item.filterMap_restored? fun i hi =>
      Item.restored?_eq_some (looseItems_readable i hi) (looseItems_length_lt i hi)]
  rw [looseBytes, decodeValues_header, hframes]
  simp only [Except.map, Except.mapError, ← toValues_itemsOf, hitems]

theorem looseItems_fits : Fits (Item.toValues looseItems) := by
  refine ⟨by decide, fun e he item hitem => ?_⟩
  rcases List.mem_cons.1 he with rfl | he
  · cases hitem
    cbv
  · rw [List.mem_singleton.1 he] at hitem
    cases hitem
    cbv

/-- The only conditions are null. -/
theorem eq_null_of_conditionsIn_looseItems :
    ∀ e ∈ Item.toValues looseItems, ∀ v, ConditionsIn e v → v = .null := by
  intro e he v hv
  rcases List.mem_cons.1 he with rfl | he
  · cases hv with
    | own hkind => cases hkind
    | inside hkind hname he hv =>
        cases hkind
        cases hname
        rw [List.mem_singleton.1 he] at hv
        exact (not_conditionsIn rfl rfl hv).elim
  · rw [List.mem_singleton.1 he] at hv
    cases hv with
    | own hkind hget =>
        cases hget
        rfl
    | inside hkind hname he hv =>
        cases hkind
        cases hname
        cases he

theorem decodeValues_again_loose :
    decodeValues looseBytes = .ok (Item.toValues looseItems) ∧
      ∃ again, encodeValues (.list (Item.toValues looseItems)) = .ok again ∧
        decodeValues again = .ok
          [.map [(.text "type", .text "row"), (.text "children", .list
              [.map [(.text "type", .text "text"), (.text "text", .text "h"),
                (.text "align", .text "left")]])],
            .map [(.text "type", .text "iterator"), (.text "path", .text ""),
              (.text "rows", .list [])]] := by
  obtain ⟨again, hencode, hdecode⟩ := decodeValues_again decodeValues_looseBytes
  refine ⟨decodeValues_looseBytes, again, hencode, hdecode looseItems_fits ?_⟩
  intro e he v hv
  rw [eq_null_of_conditionsIn_looseItems e he v hv]
  rfl

end Receipt.Codec
