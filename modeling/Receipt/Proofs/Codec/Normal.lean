import Receipt.Proofs.Codec.Item
import Receipt.Proofs.Value.Literal

/-!
# The normal form of elements

The format keeps some members of an element and drops the others. `normal` says which, on maps:
texts become texts, what may be absent is absent, and the elements inside are in normal form.

A supported element, `Supported`, is brought into the form of an item, and the item is its normal
form, `ofValue_supported`. The map of an item is brought into the form of the item again, but for
empty styles and for conditions that are null, `ofValue_toValue_settle`.
-/
namespace Receipt.Codec

/-- The elements in the list under a name. -/
def elementsUnder (name : String) (members : Members) : List Value :=
  match members.get? name with
  | some (.list items) => items
  | some (.tuple items) => items
  | _ => []

/-- The member under a name, unless it is null. -/
def nonNull (name : String) (members : Members) : Members :=
  match Value.getOrNull name members with
  | .null => []
  | v => [(.text name, v)]

/-- The members that an element of a kind keeps beside its type. -/
def kept (kind : Kind) (members : Members) (children rows : List Value) : Members :=
  match kind with
  | .text =>
    [(.text "text", .text (Item.textUnder "text" members)),
      (.text "align", .text ((Item.textUnder? "align" members).getD "left"))]
      ++ Item.optional "style" ((Item.textUnder? "style" members).map .text)
      ++ nonNull "flex" members
  | .picture => (.text "url", .text (Item.textUnder "url" members)) :: nonNull "flex" members
  | .barcode =>
    [(.text "code", .text (Item.textUnder "code" members)),
      (.text "barcode_type", .text ((Item.textUnder? "barcode_type" members).getD ""))]
      ++ nonNull "flex" members
  | .pageBreak => []
  | .horizontalLine => []
  | .row => (.text "children", .list children) :: nonNull "flex" members
  | .sectionRef => (.text "ref", .text (Item.textUnder "ref" members)) :: nonNull "flex" members
  | .iterator =>
    [(.text "path", .text (Item.textUnder "path" members)), (.text "rows", .list rows)]
      ++ nonNull "conditions" members ++ nonNull "flex" members

mutual
/-- The normal form of an element. -/
def normal : Value → Value
  | .map members =>
    match Kind.ofType? (Value.getOrNull "type" members) with
    | none => .map members
    | some kind =>
      .map ((.text "type", .text kind.name)
        :: kept kind members (normalUnder "children" members) (normalUnder "rows" members))
  | v => v

def normalUnder (name : String) : List (Key × Value) → List Value
  | [] => []
  | (key, v) :: rest => if key = .text name then normalList v else normalUnder name rest

def normalList : Value → List Value
  | .list items => normalItems items
  | .tuple items => normalItems items
  | _ => []

def normalItems : List Value → List Value
  | [] => []
  | v :: vs => normal v :: normalItems vs
end

theorem normalItems_eq_map (vs : List Value) : normalItems vs = vs.map normal := by
  induction vs with
  | nil => rfl
  | cons v vs ih => rw [normalItems, ih, List.map_cons]

theorem normalUnder_eq_map (name : String) (members : Members) :
    normalUnder name members = (elementsUnder name members).map normal := by
  induction members with
  | nil => rfl
  | cons member rest ih =>
      obtain ⟨key, v⟩ := member
      rw [normalUnder]
      by_cases hkey : key = .text name
      · rw [if_pos hkey, elementsUnder, Members.get?, if_pos hkey]
        cases v <;> simp only [normalList, normalItems_eq_map, List.map_nil]
      · rw [if_neg hkey, ih, elementsUnder, elementsUnder, Members.get?, if_neg hkey]

/-- The name of the list of elements inside a kind. -/
def innerName : Kind → Option String
  | .row => some "children"
  | .iterator => some "rows"
  | _ => none

/-- What stands under a name is a list, unless it counts as empty. -/
def HoldsList (name : String) (members : Members) : Prop :=
  ∀ v, members.get? name = some v → v.truthy = true → ∃ items, v = .list items ∨ v = .tuple items

/-- The share of the width is null or a number that can be read back. -/
def FlexInRange (members : Members) : Prop :=
  Value.getOrNull "flex" members = .null ∨
    ∃ n : Nat, n < Varint.limit ∧ Value.getOrNull "flex" members = .int n

/-- The value is null, or JSON that is read back from its text. -/
def NullOrReadBack (v : Value) : Prop :=
  v = .null ∨ Json.fault? true v = none ∧ Json.read? (Json.write .line v).toList = .ok v

/-- The texts that an element of a kind keeps can be written. -/
def HasTexts (kind : Kind) (members : Members) : Prop :=
  ∀ name ∈ kind.textNames, (Value.getOrNull name members).fits = true

instance (kind : Kind) (members : Members) : Decidable (HasTexts kind members) :=
  inferInstanceAs (Decidable (∀ name ∈ kind.textNames, (Value.getOrNull name members).fits = true))

/-- An element that the format has a kind for, as have all elements inside it. -/
inductive Supported : Value → Prop
  | intro {members : Members} {kind : Kind} :
      Kind.ofType? (Value.getOrNull "type" members) = some kind →
      HasTexts kind members →
      FlexInRange members →
      (kind = .iterator → NullOrReadBack (Value.getOrNull "conditions" members)) →
      (∀ name, innerName kind = some name → HoldsList name members) →
      (∀ name, innerName kind = some name → ∀ e ∈ elementsUnder name members, Supported e) →
      Supported (.map members)

/-- An element that has no list inside is supported by its type and its share of the width. -/
theorem Supported.of_leaf {members : Members} {kind : Kind}
    (hkind : Kind.ofType? (Value.getOrNull "type" members) = some kind)
    (htexts : HasTexts kind members) (hrange : FlexInRange members) (hiterator : kind ≠ .iterator)
    (hleaf : innerName kind = none) :
    Supported (.map members) := by
  have hno (name : String) (h : innerName kind = some name) : False := by
    rw [hleaf] at h
    cases h
  exact .intro hkind htexts hrange (fun h => absurd h hiterator) (fun name h => (hno name h).elim)
    fun name h => (hno name h).elim

namespace Item

theorem checkTexts_eq_ok_iff {kind : Kind} {members : Members} :
    checkTexts kind members = .ok () ↔ HasTexts kind members := by
  rw [checkTexts, HasTexts, ← List.all_eq_true]
  split <;> simp_all

theorem ofValue_of_kind {kind : Kind} {members : Members}
    (hkind : Kind.ofType? (Value.getOrNull "type" members) = some kind) :
    ofValue (.map members) = ofKind kind members fun name => listUnder name members := by
  rw [ofValue, hkind]

theorem flexOf_eq {members : Members} (flex : Option Nat)
    (h : Value.getOrNull "flex" members = (flex.map fun n => .int n).getD .null) :
    flexOf members = .ok flex := by
  unfold flexOf
  rw [h]
  cases flex with
  | none => rfl
  | some n =>
      have hn : ¬ ((n : Int) < 0) := by omega
      simp only [Option.map_some, Option.getD_some, wholeOf, bind, Except.bind, if_neg hn,
        Int.toNat_natCast, pure, Except.pure]

theorem flexOf_inRange {members : Members} (h : FlexInRange members) :
    ∃ flex, flexOf members = .ok flex ∧ flexMember flex = nonNull "flex" members ∧
      ∀ n, flex = some n → n < Varint.limit := by
  rcases h with h | ⟨n, hn, h⟩
  · refine ⟨none, flexOf_eq none h, ?_, nofun⟩
    rw [nonNull, h]
    rfl
  · refine ⟨some n, flexOf_eq (some n) h, ?_, ?_⟩
    · rw [nonNull, h]
      rfl
    · rintro m ⟨⟩
      exact hn

theorem conditionsOf_eq {members : Members} {conditions : Option Value}
    (hsome : ∀ v, conditions = some v → v ≠ .null ∧ Json.fault? true v = none)
    (h : Value.getOrNull "conditions" members = conditions.getD .null) :
    conditionsOf members = .ok conditions := by
  unfold conditionsOf
  rw [h]
  cases conditions with
  | none => rfl
  | some v =>
      obtain ⟨hnull, hjson⟩ := hsome v rfl
      rw [Option.getD_some]
      split
      · exact (hnull rfl).elim
      · rw [hjson]

theorem conditionsOf_readBack {members : Members}
    (h : NullOrReadBack (Value.getOrNull "conditions" members)) :
    ∃ conditions, conditionsOf members = .ok conditions ∧
      optional "conditions" conditions = nonNull "conditions" members ∧
      (∀ v, conditions = some v → v ≠ .null ∧ Json.fault? true v = none) ∧
      ∀ v, conditions = some v → Json.read? (Json.write .line v).toList = .ok v := by
  by_cases hnull : Value.getOrNull "conditions" members = .null
  · refine ⟨none, conditionsOf_eq nofun hnull, ?_, nofun, nofun⟩
    rw [nonNull, hnull]
    rfl
  · obtain ⟨hjson, hread⟩ := h.resolve_left hnull
    generalize hv : Value.getOrNull "conditions" members = v at hnull hjson hread
    have hsome : ∀ w, some v = some w → w ≠ .null ∧ Json.fault? true w = none := by
      rintro w ⟨⟩
      exact ⟨hnull, hjson⟩
    refine ⟨some v, conditionsOf_eq hsome hv, ?_, hsome, ?_⟩
    · unfold nonNull
      rw [hv]
      split
      · exact (hnull rfl).elim
      · rfl
    · rintro w ⟨⟩
      exact hread

theorem listUnder_eq (name : String) (members : Members) :
    listUnder name members =
      match members.get? name with
      | none => .ok []
      | some v => if v.truthy then listOf v else .ok [] := by
  induction members with
  | nil => rfl
  | cons member rest ih =>
      obtain ⟨key, v⟩ := member
      rw [listUnder, Members.get?]
      by_cases hkey : key = .text name
      · rw [if_pos hkey, if_pos hkey]
      · rw [if_neg hkey, if_neg hkey, ih]

theorem listUnder_of_holdsList {name : String} {members : Members} (h : HoldsList name members) :
    listUnder name members = ofItems (elementsUnder name members) := by
  rw [listUnder_eq, elementsUnder]
  cases hv : members.get? name with
  | none => rfl
  | some v =>
      by_cases htruthy : v.truthy = true
      · obtain ⟨items, rfl | rfl⟩ := h v hv htruthy
        · simp only [htruthy, if_true, listOf]
        · simp only [htruthy, if_true, listOf]
      · simp only [if_neg htruthy]
        split
        · next items hitems =>
          cases hitems
          have hempty : items = [] := by simpa [Value.truthy] using htruthy
          rw [hempty, ofItems]
        · next items hitems =>
          cases hitems
          have hempty : items = [] := by simpa [Value.truthy] using htruthy
          rw [hempty, ofItems]
        · rfl

theorem textUnder?_ne_empty {name s : String} {members : Members}
    (h : textUnder? name members = some s) : s ≠ "" := by
  simp only [textUnder?] at h
  split at h
  · next htruthy =>
    rw [← Option.some.inj h]
    exact Value.plain_ne_empty htruthy
  · cases h

theorem textUnder?_getD_ne_empty {name standard : String} {members : Members}
    (h : standard ≠ "") : (textUnder? name members).getD standard ≠ "" := by
  cases hs : textUnder? name members with
  | none => exact h
  | some s => exact textUnder?_ne_empty hs

/-- What an item has to satisfy so that its map does not lose anything when it is encoded again. -/
def Settled : Item → Prop
  | .text _ align style _ => align ≠ "" ∧ style ≠ some ""
  | .iterator _ _ conditions _ => ∀ v, conditions = some v → v ≠ .null ∧ Json.fault? true v = none
  | _ => True

/-- The items of elements, if each element has one. -/
theorem ofItems_of_forall {vs : List Value} {p : Item → Prop}
    (h : ∀ v ∈ vs, ∃ item, ofValue v = .ok item ∧ item.toValue = normal v ∧ p item) :
    ∃ items, ofItems vs = .ok items ∧ toValues items = vs.map normal ∧ ∀ i ∈ items, p i := by
  induction vs with
  | nil => exact ⟨[], by rw [ofItems], rfl, nofun⟩
  | cons v vs ih =>
      obtain ⟨item, hitem, hnormal, hp⟩ := h v List.mem_cons_self
      obtain ⟨items, hitems, hnormals, hps⟩ := ih fun w hw => h w (List.mem_cons_of_mem _ hw)
      refine ⟨item :: items, ?_, ?_, ?_⟩
      · rw [ofItems, hitem, hitems]
        rfl
      · rw [toValues, hnormals, List.map_cons, ← hnormal]
        rfl
      · intro i hi
        rcases List.mem_cons.1 hi with rfl | hi
        · exact hp
        · exact hps i hi

/-- A supported element has an item, and the item is its normal form. -/
theorem ofValue_supported {e : Value} (h : Supported e) :
    ∃ item, ofValue e = .ok item ∧ item.toValue = normal e ∧
      item.Every fun i => i.Readable ∧ i.Settled := by
  induction h with
  | @intro members kind hkind htexts hflex hconditions hlist _ ih =>
      obtain ⟨flex, hflexOf, hflexMember, hrange⟩ := flexOf_inRange hflex
      have hinner : ∀ name, innerName kind = some name →
          ∃ items, listUnder name members = .ok items ∧
            toValues items = normalUnder name members ∧
            ∀ i ∈ items, i.Every fun i => i.Readable ∧ i.Settled := by
        intro name hname
        rw [listUnder_of_holdsList (hlist name hname), normalUnder_eq_map]
        exact ofItems_of_forall (ih name hname)
      have hcheck := checkTexts_eq_ok_iff.2 htexts
      rw [ofValue_of_kind hkind, normal, hkind]
      cases kind with
      | text =>
          refine ⟨.text (textUnder "text" members) ((textUnder? "align" members).getD "left")
            (textUnder? "style" members) flex, ?_, ?_, .intro ⟨⟨?_, hrange⟩, ?_, ?_⟩ nofun⟩
          · rw [ofKind, hcheck, hflexOf]
            rfl
          · rw [toValue, Item.members, hflexMember]
            rfl
          · exact textUnder?_getD_ne_empty (by decide)
          · exact textUnder?_getD_ne_empty (by decide)
          · exact fun hstyle => textUnder?_ne_empty hstyle rfl
      | picture =>
          refine ⟨.picture (textUnder "url" members) flex, ?_, ?_, .intro ⟨hrange, trivial⟩ nofun⟩
          · rw [ofKind, hcheck, hflexOf]
            rfl
          · rw [toValue, Item.members, hflexMember]
            rfl
      | barcode =>
          refine ⟨.barcode (textUnder "code" members) ((textUnder? "barcode_type" members).getD "")
            flex, ?_, ?_, .intro ⟨hrange, trivial⟩ nofun⟩
          · rw [ofKind, hcheck, hflexOf]
            rfl
          · rw [toValue, Item.members, hflexMember]
            rfl
      | pageBreak => exact ⟨.pageBreak, rfl, rfl, .intro ⟨trivial, trivial⟩ nofun⟩
      | horizontalLine => exact ⟨.horizontalLine, rfl, rfl, .intro ⟨trivial, trivial⟩ nofun⟩
      | row =>
          obtain ⟨children, hchildren, hnormal, hevery⟩ := hinner "children" rfl
          refine ⟨.row children flex, ?_, ?_, .intro ⟨hrange, trivial⟩ hevery⟩
          · rw [ofKind, hcheck]
            simp only [hchildren, hflexOf]
            rfl
          · rw [toValue, Item.members, hflexMember, hnormal]
            rfl
      | sectionRef =>
          refine ⟨.sectionRef (textUnder "ref" members) flex, ?_, ?_,
            .intro ⟨hrange, trivial⟩ nofun⟩
          · rw [ofKind, hcheck, hflexOf]
            rfl
          · rw [toValue, Item.members, hflexMember]
            rfl
      | iterator =>
          obtain ⟨rows, hrows, hnormal, hevery⟩ := hinner "rows" rfl
          obtain ⟨conditions, hconditionsOf, hmember, hsettled, hread⟩ :=
            conditionsOf_readBack (hconditions rfl)
          refine ⟨.iterator (textUnder "path" members) rows conditions flex, ?_, ?_,
            .intro ⟨⟨hread, hrange⟩, hsettled⟩ hevery⟩
          · rw [ofKind, hcheck]
            simp only [hrows, hconditionsOf, hflexOf]
            rfl
          · rw [toValue, Item.members, hflexMember, hnormal, hmember]
            rfl

theorem textUnder?_some {name s : String} {members : Members}
    (h : Value.getOrNull name members = .text s) (hs : s ≠ "") :
    textUnder? name members = some s := by
  simp only [textUnder?, h, Value.truthy, decide_eq_true hs, if_true, Value.plain]

theorem textUnder?_none {name : String} {members : Members}
    (h : Value.getOrNull name members = .null) : textUnder? name members = none := by
  simp only [textUnder?, h, Value.truthy, Bool.false_eq_true, if_false]

/-- The share of the width that an item takes. -/
def flex : Item → Option Nat
  | .text _ _ _ flex => flex
  | .picture _ flex => flex
  | .barcode _ _ flex => flex
  | .pageBreak => none
  | .horizontalLine => none
  | .row _ flex => flex
  | .sectionRef _ flex => flex
  | .iterator _ _ _ flex => flex

theorem ofType?_members (item : Item) :
    Kind.ofType? (Value.getOrNull "type" item.members) = some item.kind := by
  cases item <;> (rw [members]; rfl)

theorem hasTexts_members (item : Item) : HasTexts item.kind item.members := by
  intro name hname
  cases item with
  | text t align style flex =>
      simp only [kind, Kind.textNames, List.mem_cons, List.not_mem_nil, or_false] at hname
      rcases hname with rfl | rfl | rfl
      · rfl
      · rfl
      · cases style <;> cases flex <;> rfl
  | picture url flex | sectionRef ref flex | iterator path rows conditions flex =>
      cases List.mem_singleton.1 hname
      rfl
  | barcode code barcodeType flex =>
      simp only [kind, Kind.textNames, List.mem_cons, List.not_mem_nil, or_false] at hname
      rcases hname with rfl | rfl <;> rfl
  | pageBreak | horizontalLine | row children flex => cases hname

theorem flexOf_members (item : Item) : flexOf item.members = .ok item.flex := by
  apply flexOf_eq
  cases item with
  | text t align style flex => cases style <;> cases flex <;> rfl
  | picture url flex => cases flex <;> rfl
  | barcode code barcodeType flex => cases flex <;> rfl
  | pageBreak => rfl
  | horizontalLine => rfl
  | row children flex => cases flex <;> rfl
  | sectionRef ref flex => cases flex <;> rfl
  | iterator path rows conditions flex => cases conditions <;> cases flex <;> rfl

/-- What an item has to satisfy so that its map can be encoded. -/
def Encodable : Item → Prop
  | .text _ align _ _ => align ≠ ""
  | .iterator _ _ conditions _ => ∀ v, conditions = some v → Json.fault? true v = none
  | _ => True

def nonNull? : Option Value → Option Value
  | some .null => none
  | conditions => conditions

theorem getD_nonNull? (conditions : Option Value) :
    (nonNull? conditions).getD .null = conditions.getD .null := by
  unfold nonNull?
  split <;> rfl

theorem eq_some_of_nonNull? {conditions : Option Value} {v : Value}
    (h : nonNull? conditions = some v) : conditions = some v ∧ v ≠ .null := by
  unfold nonNull? at h
  split at h
  · cases h
  · next hnull => exact ⟨h, fun hv => hnull (hv ▸ h)⟩

mutual
/-- The item without empty styles and without conditions that are null, at every depth. -/
def settle : Item → Item
  | .text t align style flex => .text t align (style.filter fun s => s ≠ "") flex
  | .picture url flex => .picture url flex
  | .barcode code barcodeType flex => .barcode code barcodeType flex
  | .pageBreak => .pageBreak
  | .horizontalLine => .horizontalLine
  | .row children flex => .row (settleAll children) flex
  | .sectionRef ref flex => .sectionRef ref flex
  | .iterator path rows conditions flex =>
    .iterator path (settleAll rows) (nonNull? conditions) flex

def settleAll : List Item → List Item
  | [] => []
  | item :: items => item.settle :: settleAll items
end

theorem settleAll_eq_map (items : List Item) : settleAll items = items.map settle := by
  induction items with
  | nil => rfl
  | cons item items ih => rw [settleAll, ih, List.map_cons]

theorem ofItems_toValues_map {items : List Item} {f : Item → Item}
    (h : ∀ i ∈ items, ofValue i.toValue = .ok (f i)) :
    ofItems (toValues items) = .ok (items.map f) := by
  induction items with
  | nil => rfl
  | cons i items ih =>
      have hhead : ofValue (.map i.members) = .ok (f i) := h i List.mem_cons_self
      rw [toValues, ofItems, hhead, ih fun j hj => h j (List.mem_cons_of_mem _ hj)]
      rfl

theorem ofItems_toValues {items : List Item} (h : ∀ i ∈ items, ofValue i.toValue = .ok i) :
    ofItems (toValues items) = .ok items := by
  have hmap := ofItems_toValues_map h
  rwa [List.map_id'] at hmap

theorem listUnder_toValues {name : String} {members : Members} {items : List Item}
    (hget : members.get? name = some (.list (toValues items)))
    (h : ∀ i ∈ items, ofValue i.toValue = .ok i.settle) :
    listUnder name members = .ok (settleAll items) := by
  have hlist : HoldsList name members := fun v hv _ => ⟨toValues items, .inl (by
    rw [hget] at hv
    exact (Option.some.inj hv).symm)⟩
  have helements : elementsUnder name members = toValues items := by
    rw [elementsUnder, hget]
  rw [listUnder_of_holdsList hlist, helements, ofItems_toValues_map h, settleAll_eq_map]

/-- An item loses no more than empty styles and null conditions when its map is encoded. -/
theorem textUnder?_style_members (t align : String) (style : Option String) (flex : Option Nat) :
    textUnder? "style" (Item.members (.text t align style flex)) = style.filter fun s => s ≠ "" := by
  cases style with
  | none => exact textUnder?_none (by cases flex <;> rfl)
  | some s =>
      by_cases hs : s = ""
      · rw [hs]
        rfl
      · rw [textUnder?_some rfl hs, Option.filter_some, if_pos (decide_eq_true hs)]

theorem getD_barcodeType_members (code barcodeType : String) (flex : Option Nat) :
    (textUnder? "barcode_type" (Item.members (.barcode code barcodeType flex))).getD "" =
      barcodeType := by
  by_cases hempty : barcodeType = ""
  · rw [hempty]
    rfl
  · rw [textUnder?_some rfl hempty]
    rfl

theorem conditionsOf_members {path : String} {rows : List Item} {conditions : Option Value}
    {flex : Option Nat} (h : (Item.iterator path rows conditions flex).Encodable) :
    conditionsOf (Item.members (.iterator path rows conditions flex)) =
      .ok (nonNull? conditions) := by
  apply conditionsOf_eq
  · intro v hv
    have hsome := eq_some_of_nonNull? hv
    exact ⟨hsome.2, h v hsome.1⟩
  · rw [getD_nonNull?]
    cases conditions <;> cases flex <;> rfl

theorem ofValue_toValue_settle {item : Item} (h : item.Every Encodable) :
    ofValue item.toValue = .ok item.settle := by
  induction h with
  | @intro item hencodable _ ih =>
      have hkind := item.ofType?_members
      have hcheck := checkTexts_eq_ok_iff.2 item.hasTexts_members
      have hflex := item.flexOf_members
      rw [toValue, ofValue_of_kind hkind]
      cases item with
      | text t align style flex =>
          have halign : textUnder? "align" (Item.members (.text t align style flex)) = some align :=
            textUnder?_some rfl hencodable
          rw [kind] at hcheck ⊢
          rw [ofKind, hcheck, hflex, halign, textUnder?_style_members]
          rfl
      | picture url flex =>
          rw [kind] at hcheck ⊢
          rw [ofKind, hcheck, hflex]
          rfl
      | barcode code barcodeType flex =>
          rw [kind] at hcheck ⊢
          rw [ofKind, hcheck, hflex]
          simp only [getD_barcodeType_members, bind, Except.bind, pure, Except.pure]
          rfl
      | pageBreak => rfl
      | horizontalLine => rfl
      | row children flex =>
          have hchildren : listUnder "children" (Item.members (.row children flex)) =
              .ok (settleAll children) := listUnder_toValues rfl ih
          rw [kind] at hcheck ⊢
          rw [ofKind, hcheck, hflex]
          simp only [hchildren]
          rfl
      | sectionRef ref flex =>
          rw [kind] at hcheck ⊢
          rw [ofKind, hcheck, hflex]
          rfl
      | iterator path rows conditions flex =>
          have hrows : listUnder "rows" (Item.members (.iterator path rows conditions flex)) =
              .ok (settleAll rows) := listUnder_toValues rfl ih
          rw [kind] at hcheck ⊢
          rw [ofKind, hcheck, hflex]
          simp only [hrows, conditionsOf_members hencodable]
          rfl

theorem Settled.encodable {item : Item} (h : item.Settled) : item.Encodable := by
  cases item with
  | text t align style flex => exact h.1
  | iterator path rows conditions flex => exact fun v hv => (h v hv).2
  | _ => trivial

theorem settleAll_eq_self {items : List Item} (h : ∀ i ∈ items, i.settle = i) :
    settleAll items = items := by
  rw [settleAll_eq_map]
  exact (List.map_congr_left h).trans (List.map_id' items)

theorem settle_of_settled {item : Item} (h : item.Every Settled) : item.settle = item := by
  induction h with
  | @intro item hsettled _ ih =>
      cases item with
      | text t align style flex =>
          have hstyle : (style.filter fun s => s ≠ "") = style := by
            cases style with
            | none => rfl
            | some s =>
                have hs : s ≠ "" := fun hs => hsettled.2 (congrArg some hs)
                rw [Option.filter_some, if_pos (decide_eq_true hs)]
          rw [settle, hstyle]
      | row children flex =>
          have hchildren : settleAll children = children := settleAll_eq_self ih
          rw [settle, hchildren]
      | iterator path rows conditions flex =>
          have hrows : settleAll rows = rows := settleAll_eq_self ih
          have hconditions : nonNull? conditions = conditions := by
            unfold nonNull?
            split
            · exact ((hsettled .null rfl).1 rfl).elim
            · rfl
          rw [settle, hrows, hconditions]
      | _ => rfl

/-- A settled item is what its map is brought into. -/
theorem ofValue_toValue {item : Item} (h : item.Every Settled) :
    ofValue item.toValue = .ok item := by
  rw [ofValue_toValue_settle (h.mono fun _ hi => hi.encodable), settle_of_settled h]

end Item

end Receipt.Codec
