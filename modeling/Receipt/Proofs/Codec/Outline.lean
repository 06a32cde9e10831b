import Receipt.Proofs.Codec.Accepted

/-!
# What is kept of encoded elements

The outline of an element is its kind and the outlines of the elements inside it. A number of any
size is encoded, and one of six groups at most is read, so an element whose share of the width takes
more groups is left out when it is read, `restored?_of_not_flexFits`, and nothing fails. Encoded
elements are read with the same outlines exactly if there is no such number in them:
`outlines_decodeValues_iff`.
-/
namespace Receipt.Codec

/-- The kind of an element and the outlines of the elements inside it. -/
inductive Outline where
  | unknown
  | element (kind : Kind) (inner : List Outline)

mutual
def outline : Value → Outline
  | .map members =>
    match Kind.ofType? (Value.getOrNull "type" members) with
    | none => .unknown
    | some kind =>
      match innerName kind with
      | none => .element kind []
      | some name => .element kind (outlineUnder name members)
  | _ => .unknown

def outlineUnder (name : String) : List (Key × Value) → List Outline
  | [] => []
  | (key, v) :: rest => if key = .text name then outlineList v else outlineUnder name rest

def outlineList : Value → List Outline
  | .list items => outlines items
  | .tuple items => outlines items
  | _ => []

def outlines : List Value → List Outline
  | [] => []
  | v :: vs => outline v :: outlines vs
end

theorem outlines_eq_map (vs : List Value) : outlines vs = vs.map outline := by
  induction vs with
  | nil => rfl
  | cons v vs ih => rw [outlines, ih, List.map_cons]

theorem outlineUnder_eq_map (name : String) (members : Members) :
    outlineUnder name members = (elementsUnder name members).map outline := by
  induction members with
  | nil => rfl
  | cons member rest ih =>
      obtain ⟨key, v⟩ := member
      rw [outlineUnder]
      by_cases hkey : key = .text name
      · rw [if_pos hkey, elementsUnder, Members.get?, if_pos hkey]
        cases v <;> simp only [outlineList, outlines_eq_map, List.map_nil]
      · rw [if_neg hkey, ih, elementsUnder, elementsUnder, Members.get?, if_neg hkey]

theorem outline_map {members : Members} {kind : Kind}
    (h : Kind.ofType? (Value.getOrNull "type" members) = some kind) :
    outline (.map members) = .element kind ((elementsOf kind members).map outline) := by
  rw [outline, h]
  simp only [elementsOf]
  cases innerName kind with
  | none => rfl
  | some name => simp only [outlineUnder_eq_map]

namespace Item

theorem elementsOf_members (item : Item) :
    elementsOf item.kind item.members = item.inner.map toValue := by
  cases item with
  | row children flex =>
      rw [inner, ← toValues_eq_map, members]
      rfl
  | iterator path rows conditions flex =>
      rw [inner, ← toValues_eq_map, members]
      rfl
  | _ => rfl

theorem outline_toValue (item : Item) :
    outline item.toValue = .element item.kind (item.inner.map fun i => outline i.toValue) := by
  rw [toValue, outline_map item.ofType?_members, elementsOf_members, List.map_map]
  rfl

theorem map_outline_of_ofItems {es : List Value} {items : List Item}
    (hitems : ofItems es = .ok items)
    (h : ∀ i ∈ items, ∀ e, ofValue e = .ok i → outline e = outline i.toValue) :
    es.map outline = items.map fun i => outline i.toValue := by
  have hall := ofItems_eq_ok_iff.1 hitems
  clear hitems
  induction hall with
  | nil => rfl
  | @cons e i es items hvalue _ ih =>
      rw [List.map_cons, List.map_cons, h i List.mem_cons_self e hvalue,
        ih fun j hj => h j (List.mem_cons_of_mem _ hj)]

/-- The form that an element is brought into has the outline of the element. -/
theorem outline_of_ofValue {e : Value} {item : Item} (h : ofValue e = .ok item) :
    outline e = outline item.toValue := by
  induction item using inner_induction generalizing e with
  | step item ih =>
      obtain ⟨members, rfl, hkind, hinner, -, -⟩ := of_ofValue_eq_ok h
      rw [outline_map hkind, outline_toValue,
        map_outline_of_ofItems hinner fun i hi e hvalue => ih i hi hvalue]

/-- The share of the width can be read back. -/
def FlexFits (item : Item) : Prop := ∀ n, item.flex = some n → n < Varint.limit

theorem flexFits_of_eq_none {item : Item} (h : item.flex = none) : item.FlexFits := by
  intro n hn
  rw [h] at hn
  cases hn

theorem find?_flex (item : Item) :
    Chunk.find? Field.flex.tag item.fieldChunks = item.flex.map Varint.encode := by
  rw [find?_fieldChunks]
  cases item <;> rfl

theorem find?_conditions (item : Item) : Chunk.find? Field.conditions.tag item.fieldChunks =
    (item.conditions.map (Json.write .line)).map Text.Utf8.ofString := by
  rw [find?_fieldChunks]
  cases item <;> rfl

theorem fieldFlex?_of_not_flexFits {item : Item} (h : ¬ item.FlexFits) :
    fieldFlex? item.fieldChunks = none := by
  simp only [FlexFits, not_forall, Nat.not_lt] at h
  obtain ⟨n, hn, hlimit⟩ := h
  have hrefused := Varint.read_encode_of_le hlimit []
  rw [List.append_nil] at hrefused
  simp only [fieldFlex?, find?_flex, hn, Option.map_some, hrefused]

theorem exists_fieldConditions? {item : Item} (h : item.ConditionsRead) :
    ∃ conditions, fieldConditions? item.fieldChunks = some conditions := by
  have htext := fieldText?_eq item.find?_conditions
  cases hconditions : item.conditions with
  | none => exact ⟨none, by simp only [fieldConditions?, htext, hconditions, Option.map_none]⟩
  | some v =>
      obtain ⟨w, hw⟩ := h v hconditions
      exact ⟨some w, by simp only [fieldConditions?, htext, hconditions, Option.map_some, hw]⟩

/-- Fields are an item if the share of the width and the conditions in them can be read. -/
theorem exists_ofFields? {kind : Kind} {fields : List Chunk} {flex : Option Nat}
    {conditions : Option Value} (hflex : fieldFlex? fields = some flex)
    (hconditions : fieldConditions? fields = some conditions) {items : List Item}
    (hitems : innerName kind = none → items = []) :
    ∃ item, ofFields? kind fields items = some item ∧ item.kind = kind ∧ item.inner = items := by
  rw [ofFields?, hflex, Option.bind_eq_bind, Option.bind_some]
  cases kind with
  | row => exact ⟨.row items flex, rfl, rfl, rfl⟩
  | iterator =>
      refine ⟨.iterator (fieldText .path fields) items conditions flex, ?_, rfl, rfl⟩
      simp only [hconditions, Option.bind_eq_bind, Option.bind_some]
      rfl
  | _ =>
      rw [hitems rfl]
      exact ⟨_, rfl, rfl, rfl⟩

theorem inner_of_innerName_eq_none {item : Item} (h : innerName item.kind = none) :
    item.inner = [] := by
  cases item with
  | row children flex => cases h
  | iterator path rows conditions flex => cases h
  | _ => rfl

/-- An item with a share of the width that takes too many groups is left out. -/
theorem restored?_of_not_flexFits {item : Item} (h : ¬ item.FlexFits)
    (hfits : item.chunk.body.length < Varint.limit) : item.restored? = none := by
  by_cases hkind : HasFields item.kind
  · rw [restored?_eq hkind hfits, ofFields?, fieldFlex?_of_not_flexFits h]
    rfl
  · rcases eq_of_not_hasFields hkind with rfl | rfl
    · exact (h (flexFits_of_eq_none rfl)).elim
    · exact (h (flexFits_of_eq_none rfl)).elim

/-- Any other item is read again, with what is read of the items inside. -/
theorem exists_restored? {item : Item} (h : item.FlexFits) (hread : item.ConditionsRead)
    (hfits : item.chunk.body.length < Varint.limit) :
    ∃ other, item.restored? = some other ∧ other.kind = item.kind ∧
      other.inner = item.inner.filterMap restored? := by
  by_cases hkind : HasFields item.kind
  · have hflex := fieldFlex?_eq h item.find?_flex
    obtain ⟨conditions, hconditions⟩ := exists_fieldConditions? hread
    rw [restored?_eq hkind hfits]
    refine exists_ofFields? hflex hconditions fun hnone => ?_
    rw [inner_of_innerName_eq_none hnone]
    rfl
  · refine ⟨item, restored?_of_not_hasFields hkind, rfl, ?_⟩
    rcases eq_of_not_hasFields hkind with rfl | rfl
    · rfl
    · rfl

/-- No item is left out, at any depth, exactly if each share of the width can be read. -/
theorem outline_restored?_iff {item : Item} (hread : item.Every ConditionsRead)
    (hfits : item.chunk.body.length < Varint.limit) :
    item.restored?.map (fun i => outline i.toValue) = some (outline item.toValue) ↔
      item.Every FlexFits := by
  induction hread with
  | @intro item hconditions _ ih =>
      have hinner : (item.inner.filterMap restored?).map (fun i => outline i.toValue) =
          item.inner.map (fun i => outline i.toValue) ↔ ∀ i ∈ item.inner, i.Every FlexFits := by
        rw [List.map_filterMap, List.filterMap_eq_map_iff_forall_eq_some]
        exact forall₂_congr fun i hi => ih i hi (length_lt_of_mem_inner hi hfits)
      -- An item that is left out takes all that is inside it along, so its own share comes first.
      by_cases hflex : item.FlexFits
      · obtain ⟨other, hother, hkind, hinnerOf⟩ := exists_restored? hflex hconditions hfits
        rw [hother, Option.map_some, outline_toValue, outline_toValue, hkind, hinnerOf]
        simp only [Option.some.injEq, Outline.element.injEq, true_and, hinner]
        constructor
        · exact fun hall => .intro hflex hall
        · rintro ⟨-, hall⟩
          exact hall
      · rw [restored?_of_not_flexFits hflex hfits]
        constructor
        · nofun
        · rintro ⟨hfit, -⟩
          exact (hflex hfit).elim

end Item

theorem fits_iff {es : List Value} {items : List Item} (h : Item.ofItems es = .ok items) :
    Fits es ↔ items.length < Varint.limit ∧
      ∀ i ∈ items, i.chunk.body.length < Varint.limit := by
  rw [Fits, (Item.ofItems_eq_ok_iff.1 h).length_eq]
  refine and_congr_right fun _ => ?_
  constructor
  · intro hfits i hi
    obtain ⟨e, he, hvalue⟩ := Item.exists_of_mem_items h hi
    exact hfits e he i hvalue
  · intro hfits e he item hitem
    obtain ⟨i, hi, hvalue⟩ := Item.exists_item_of_mem h he
    rw [hitem] at hvalue
    cases hvalue
    exact hfits item hi

/-- A count or a length that takes too many groups is met before anything is read. -/
theorem decodeValues_encode_of_not_fits {items : List Item}
    (h : ¬ (items.length < Varint.limit ∧ ∀ i ∈ items, i.chunk.body.length < Varint.limit)) :
    decodeValues (encode items) = .error (.number .tooLong) := by
  have hencode : encode items = header ++ Chunk.encodeList (Item.chunks items) := rfl
  have hrefused : frames (Chunk.encodeList (Item.chunks items)) = .error .tooLong := by
    apply frames_encodeList_of_not_fits
    rw [Item.chunks_eq_map, List.length_map]
    by_cases hcount : items.length < Varint.limit
    · simp only [hcount, true_and, not_forall] at h
      obtain ⟨i, hi, hlength⟩ := h
      exact .inr ⟨i.chunk, List.mem_map_of_mem hi, fun hfits => hlength hfits.2⟩
    · exact .inl (Nat.not_lt.1 hcount)
  rw [hencode, decodeValues_header, hrefused]
  rfl

theorem outlines_valuesOf_iff {items : List Item}
    (hread : ∀ i ∈ items, i.Every Item.ConditionsRead)
    (hfits : ∀ i ∈ items, i.chunk.body.length < Varint.limit) :
    outlines (valuesOf (Item.chunks items)) = items.map (fun i => outline i.toValue) ↔
      ∀ i ∈ items, i.Every Item.FlexFits := by
  rw [outlines_eq_map, ← toValues_itemsOf, Item.itemsOf_chunks, Item.toValues_eq_map,
    List.map_map, List.map_filterMap, List.filterMap_eq_map_iff_forall_eq_some]
  exact forall₂_congr fun i hi => Item.outline_restored?_iff (hread i hi) (hfits i hi)

/-- Elements that are encoded are read with the same outlines exactly if each number that is written
for them can be read: their count, the lengths of their bodies, and the shares of the width at every
depth. The numbers with a point in conditions are binary64 numbers. -/
theorem outlines_decodeValues_iff {es : List Value} {items : List Item}
    (hitems : Item.ofItems es = .ok items)
    (hnumbers : ∀ e ∈ es, ∀ v, ConditionsIn e v → Json.IsBinary64 v) :
    ∃ bytes, encodeValues (.list es) = .ok bytes ∧
      ((∃ values, decodeValues bytes = .ok values ∧ outlines values = outlines es) ↔
        Fits es ∧ ∀ i ∈ items, i.Every Item.FlexFits) := by
  have houtlines : outlines es = items.map fun i => outline i.toValue := by
    rw [outlines_eq_map]
    exact Item.map_outline_of_ofItems hitems fun i _ e hvalue => Item.outline_of_ofValue hvalue
  have hread : ∀ i ∈ items, i.Every Item.ConditionsRead := by
    intro i hi
    obtain ⟨e, he, hvalue⟩ := Item.exists_of_mem_items hitems hi
    exact Item.every_conditionsRead hvalue (hnumbers e he)
  refine ⟨encode items, encodeValues_of_ofItems hitems, ?_⟩
  rw [fits_iff hitems, houtlines]
  constructor
  · rintro ⟨values, hvalues, hsame⟩
    have hfits : items.length < Varint.limit ∧
        ∀ i ∈ items, i.chunk.body.length < Varint.limit := by
      by_contra hno
      rw [decodeValues_encode_of_not_fits hno] at hvalues
      cases hvalues
    rw [decodeValues_encode_eq hfits.1 hfits.2] at hvalues
    cases hvalues
    exact ⟨hfits, (outlines_valuesOf_iff hread hfits.2).1 hsame⟩
  · rintro ⟨hfits, hflex⟩
    refine ⟨_, decodeValues_encode_eq hfits.1 hfits.2, ?_⟩
    exact (outlines_valuesOf_iff hread hfits.2).2 hflex

/-- The form that the nested elements are encoded in. -/
def nestedItems : List Item :=
  [.row [.text "7" "left" (some "bold") (some 300)] none,
    .iterator "lines" [.pageBreak] (some (.list [.text "a", .null])) none]

theorem nestedElements_isBinary64 :
    ∀ e ∈ nestedElements, ∀ v, ConditionsIn e v → Json.IsBinary64 v := by
  intro e he v hv
  rcases List.mem_cons.1 he with rfl | he
  · cases hv with
    | own hkind => cases hkind
    | inside hkind hname he hv =>
        cases hkind
        cases hname
        rw [List.mem_singleton.1 he] at hv
        exact (not_conditionsIn rfl rfl hv).elim
  · rw [List.mem_singleton.1 he] at hv
    cases hv with
    | own hkind hget =>
        cases hget
        exact ⟨trivial, trivial, trivial⟩
    | inside hkind hname he hv =>
        cases hkind
        cases hname
        rw [List.mem_singleton.1 he] at hv
        exact (not_conditionsIn rfl rfl hv).elim

theorem nestedItems_flexFits : ∀ i ∈ nestedItems, i.Every Item.FlexFits := by
  intro i hi
  rcases List.mem_cons.1 hi with rfl | hi
  · refine .intro nofun fun j hj => ?_
    rw [List.mem_singleton.1 hj]
    refine .intro ?_ nofun
    rintro n ⟨⟩
    decide
  · rw [List.mem_singleton.1 hi]
    refine .intro nofun fun j hj => ?_
    rw [List.mem_singleton.1 hj]
    exact .intro nofun nofun

theorem outlines_decodeValues_nested :
    Item.ofItems nestedElements = .ok nestedItems ∧
      (∀ e ∈ nestedElements, ∀ v, ConditionsIn e v → Json.IsBinary64 v) ∧
      ∃ bytes, encodeValues (.list nestedElements) = .ok bytes ∧
        ∃ values, decodeValues bytes = .ok values ∧ outlines values = outlines nestedElements := by
  refine ⟨rfl, nestedElements_isBinary64, ?_⟩
  obtain ⟨bytes, hbytes, hiff⟩ := outlines_decodeValues_iff rfl nestedElements_isBinary64
  exact ⟨bytes, hbytes, hiff.2 ⟨nestedElements_fits, nestedItems_flexFits⟩⟩

/-- A text whose share of the width takes seven groups, and a page break. -/
def wideText : List Value :=
  [.map [(.text "type", .text "text"), (.text "text", .text "Total"),
      (.text "flex", .int 4398046511104)],
    .map [(.text "type", .text "pagebreak")]]

/-- It is encoded, and only the page break is read. -/
theorem outlines_decodeValues_wide :
    ∃ bytes, encodeValues (.list wideText) = .ok bytes ∧
      decodeValues bytes = .ok [.map [(.text "type", .text "pagebreak")]] ∧
      outlines [.map [(.text "type", .text "pagebreak")]] ≠ outlines wideText := by
  have hitems : Item.ofItems wideText =
      .ok [.text "Total" "left" none (some 4398046511104), .pageBreak] := rfl
  refine ⟨_, encodeValues_of_ofItems hitems, ?_, ?_⟩
  · have hfits : ∀ i ∈ [Item.text "Total" "left" none (some 4398046511104), .pageBreak],
        i.chunk.body.length < Varint.limit := by
      intro i hi
      rcases List.mem_cons.1 hi with rfl | hi
      · cbv
      · rw [List.mem_singleton.1 hi]
        decide
    have hwide : (Item.text "Total" "left" none (some 4398046511104)).restored? = none := by
      refine Item.restored?_of_not_flexFits ?_ (hfits _ List.mem_cons_self)
      exact fun hflex => absurd (hflex _ rfl) (by decide)
    have hbreak : Item.pageBreak.restored? = some .pageBreak :=
      Item.restored?_of_not_hasFields fun hkind => hkind.1 rfl
    rw [decodeValues_encode_eq (by decide) hfits, ← toValues_itemsOf, Item.itemsOf_chunks,
      List.filterMap_cons_none hwide, List.filterMap_cons_some hbreak]
    rfl
  · intro hsame
    cases congrArg List.length hsame

end Receipt.Codec
