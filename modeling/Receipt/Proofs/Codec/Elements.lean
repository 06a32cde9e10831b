import Receipt.Proofs.Codec.Accepted
import Receipt.Proofs.Codec.Inserted
import Receipt.Proofs.Element

/-!
# Elements are encoded as their maps

Maps can be encoded as they are, or read to elements whose maps are encoded. Both give the same
bytes or fail with the same error, `encodeElements_eq_iff`, but for a text or a code that is given
as null: as it is it becomes a word of four letters, and in the map of an element it is absent, so
that the second encoding is shorter.

The two are compared by `Compared`, item by item and from the inside to the outside.
-/
namespace Receipt.Codec

theorem eq_of_hasType {members : Members} {name other : String} (h : members.HasType name)
    (hother : members.HasType other) : name = other := by
  unfold Members.HasType Value.isText at h hother
  exact Option.some.inj ((of_decide_eq_true h).symm.trans (of_decide_eq_true hother))

theorem not_hasType {members : Members} {name other : String} (h : members.HasType name)
    (hne : name ≠ other) : ¬ members.HasType other :=
  fun hother => hne (eq_of_hasType h hother)

theorem ofType?_of_hasType {members : Members} (kind : Kind) (h : members.HasType kind.name) :
    Kind.ofType? (Value.getOrNull "type" members) = some kind := by
  unfold Members.HasType Value.isText at h
  simp only [Kind.ofType?, Value.isText, of_decide_eq_true h]
  cases kind <;> rfl

theorem hasType_of_ofType? {members : Members} {kind : Kind}
    (h : Kind.ofType? (Value.getOrNull "type" members) = some kind) :
    members.HasType kind.name := by
  have hfound := List.find?_some h
  exact hfound

/-- A map that is an element. If it is a row, its children are a list of such maps. -/
inductive IsElement : Value → Prop
  | intro {members : Members} :
      (members.HasType "row" → HoldsList "children" members) →
      (members.HasType "row" → ∀ v ∈ elementsUnder "children" members, IsElement v) →
      IsElement (.map members)

/-- A text or a code is given as null, in the element or in one inside it. -/
inductive HasNull : Value → Prop
  | text {members : Members} (type : members.HasType "text")
      (null : members.get? "text" = some .null) : HasNull (.map members)
  | code {members : Members} (type : members.HasType "barcode")
      (null : members.get? "code" = some .null) : HasNull (.map members)
  | inside {members : Members} {v : Value} (type : members.HasType "row")
      (mem : v ∈ elementsUnder "children" members) (h : HasNull v) : HasNull (.map members)

theorem hasNull_iff {members : Members} :
    HasNull (.map members) ↔
      (members.HasType "text" ∧ members.get? "text" = some .null) ∨
      (members.HasType "barcode" ∧ members.get? "code" = some .null) ∨
      (members.HasType "row" ∧ ∃ v ∈ elementsUnder "children" members, HasNull v) := by
  constructor
  · intro h
    cases h with
    | text type null => exact .inl ⟨type, null⟩
    | code type null => exact .inr (.inl ⟨type, null⟩)
    | inside type mem h => exact .inr (.inr ⟨type, _, mem, h⟩)
  · rintro (⟨type, null⟩ | ⟨type, null⟩ | ⟨type, v, mem, h⟩)
    · exact .text type null
    · exact .code type null
    · exact .inside type mem h

theorem elementsUnder_children (es : List Element) (flex : Value) :
    elementsUnder "children" (Element.row es flex).members = Element.toValues es := by
  rw [elementsUnder, Element.get?_children]

theorem holdsList_children (es : List Element) (flex : Value) :
    HoldsList "children" (Element.row es flex).members := by
  intro v hv _
  rw [Element.get?_children, Option.some.injEq] at hv
  exact ⟨_, .inl hv.symm⟩

theorem isElement_of_not_row {members : Members} (h : ¬ members.HasType "row") :
    IsElement (.map members) :=
  .intro (fun hrow => (h hrow).elim) fun hrow => (h hrow).elim

theorem Chunk.length_encodeList_cons_lt {c d : Chunk} (rest : List Chunk) (htag : c.tag = d.tag)
    (hbody : c.body.length < d.body.length) :
    (encodeList (c :: rest)).length < (encodeList (d :: rest)).length := by
  have hnumber := Varint.length_encode_mono hbody.le
  simp only [encodeList, encode, List.flatMap_cons, List.length_append, List.length_cons, htag]
  omega

namespace Item

/-- How many bytes an item takes. -/
def size (item : Item) : Nat := item.chunk.encode.length

def sizes (items : List Item) : Nat := (items.map size).sum

theorem length_encodeList_chunks (items : List Item) :
    (Chunk.encodeList (chunks items)).length =
      (Varint.encode items.length).length + sizes items := by
  rw [Chunk.encodeList, List.length_append, chunks_eq_map, List.length_map, List.flatMap_map,
    List.length_flatMap]
  rfl

/-- An item takes fewer bytes if its first field does. -/
theorem size_lt {item item' : Item} (hkind : item'.kind = item.kind) (hfields : HasFields item.kind)
    {c d : Chunk} {rest : List Chunk} (hc : item'.fieldChunks = c :: rest)
    (hd : item.fieldChunks = d :: rest) (htag : c.tag = d.tag)
    (hbody : c.body.length < d.body.length) : item'.size < item.size := by
  have hlength := Chunk.length_encodeList_cons_lt rest htag hbody
  have hnumber := Varint.length_encode_mono hlength.le
  rw [size, size, chunk_eq hfields, chunk_eq (hkind ▸ hfields), hc, hd, hkind]
  simp only [Chunk.encode, List.length_append]
  omega

/-- An item takes fewer bytes than another one. -/
def Smaller (item item' : Item) : Prop := item'.size < item.size

/-- As many items take fewer bytes. -/
def AllSmaller (items items' : List Item) : Prop :=
  items'.length = items.length ∧ sizes items' < sizes items

theorem AllSmaller.length_encodeList_lt {items items' : List Item} (h : AllSmaller items items') :
    (Chunk.encodeList (chunks items')).length < (Chunk.encodeList (chunks items)).length := by
  obtain ⟨hlength, hsizes⟩ := h
  rw [length_encodeList_chunks, length_encodeList_chunks, hlength]
  exact Nat.add_lt_add_left hsizes _

/-- Two outcomes are the same, except that the second is smaller if something is hidden. -/
inductive Compared {α : Type} (smaller : α → α → Prop) (hides : Prop) :
    Except Error α → Except Error α → Prop
  | error (e : Error) : Compared smaller hides (.error e) (.error e)
  | same (hshown : ¬ hides) (a : α) : Compared smaller hides (.ok a) (.ok a)
  | smaller (hhidden : hides) {a a' : α} (h : smaller a a') :
      Compared smaller hides (.ok a) (.ok a')

namespace Compared

variable {α β : Type} {smaller : α → α → Prop} {smaller' : β → β → Prop} {hides hides' : Prop}
  {r r' : Except Error α}

theorem refl (h : ¬ hides) (r : Except Error α) : Compared smaller hides r r := by
  cases r with
  | error e => exact .error e
  | ok a => exact .same h a

theorem of_iff (h : Compared smaller hides r r') (hiff : hides ↔ hides') :
    Compared smaller hides' r r' := by
  rwa [← propext hiff]

theorem bind {f : α → Except Error β} (h : Compared smaller hides r r')
    (hf : hides → ∀ a a', smaller a a' → Compared smaller' hides (f a) (f a')) :
    Compared smaller' hides (r.bind f) (r'.bind f) := by
  cases h with
  | error e => exact .error e
  | same hshown a => exact refl hshown (f a)
  | smaller hhidden h => exact hf hhidden _ _ h

/-- What both go through first does not tell them apart. -/
theorem bind_const {f g : β → Except Error α} {s : Except Error β}
    (h : ∀ b, Compared smaller hides (f b) (g b)) :
    Compared smaller hides (s.bind f) (s.bind g) := by
  cases s with
  | error e => exact .error e
  | ok b => exact h b

end Compared

theorem compared_cons {v v' : Value} {vs vs' : List Value} {hides hides' : Prop}
    (hhead : Compared Smaller hides (ofValue v) (ofValue v'))
    (htail : Compared AllSmaller hides' (ofItems vs) (ofItems vs')) :
    Compared AllSmaller (hides ∨ hides') (ofItems (v :: vs)) (ofItems (v' :: vs')) := by
  rw [ofItems, ofItems]
  generalize ofValue v = r, ofValue v' = r' at hhead
  generalize ofItems vs = s, ofItems vs' = s' at htail
  cases hhead with
  | error e => exact .error e
  | same hshown item =>
      cases htail with
      | error e => exact .error e
      | same hshown' items => exact .same (not_or.2 ⟨hshown, hshown'⟩) (item :: items)
      | smaller hhidden h =>
          exact .smaller (.inr hhidden) ⟨congrArg (· + 1) h.1, Nat.add_lt_add_left h.2 _⟩
  | smaller hhidden h =>
      cases htail with
      | error e => exact .error e
      | same hshown items => exact .smaller (.inl hhidden) ⟨rfl, Nat.add_lt_add_right h _⟩
      | smaller hhidden' h' =>
          exact .smaller (.inl hhidden) ⟨congrArg (· + 1) h'.1, Nat.add_lt_add h h'.2⟩

/-- Elements are compared one by one. -/
theorem exists_elements {vs : List Value}
    (h : ∀ v ∈ vs, ∃ e, Element.ofValue v = .ok e ∧
      Compared Smaller (HasNull v) (ofValue v) (ofValue e.toValue)) :
    ∃ es, Element.ofItems vs = .ok es ∧
      Compared AllSmaller (∃ v ∈ vs, HasNull v) (ofItems vs) (ofItems (Element.toValues es)) := by
  induction vs with
  | nil =>
      refine ⟨[], rfl, ?_⟩
      rw [Element.toValues]
      exact .refl (by simp) _
  | cons v vs ih =>
      obtain ⟨e, he, hhead⟩ := h v List.mem_cons_self
      obtain ⟨es, hes, htail⟩ := ih fun w hw => h w (List.mem_cons_of_mem _ hw)
      refine ⟨e :: es, ?_, ?_⟩
      · rw [Element.ofItems, he, hes]
        rfl
      · rw [Element.toValues]
        exact (compared_cons hhead htail).of_iff (by simp)

theorem flexOf_congr {members members' : Members}
    (h : Value.getOrNull "flex" members' = Value.getOrNull "flex" members) :
    flexOf members' = flexOf members := by
  rw [flexOf, flexOf, h]

theorem textUnder?_congr {name : String} {members members' : Members}
    (h : Value.getOrNull name members' = Value.getOrNull name members) :
    textUnder? name members' = textUnder? name members := by
  rw [textUnder?, textUnder?, h]

theorem checkTexts_congr {kind : Kind} {members members' : Members}
    (h : ∀ name ∈ kind.textNames,
      (Value.getOrNull name members').fits = (Value.getOrNull name members).fits) :
    checkTexts kind members' = checkTexts kind members := by
  have hall : (kind.textNames.all fun name => (Value.getOrNull name members').fits) =
      kind.textNames.all fun name => (Value.getOrNull name members).fits := by
    rw [Bool.eq_iff_iff, List.all_eq_true, List.all_eq_true]
    exact forall₂_congr fun name hname => by rw [h name hname]
  rw [checkTexts, checkTexts, hall]

/-- A text that is left out is empty, and no text has too many digits then. -/
theorem fits_getD (name : String) (members : Members) :
    ((members.get? name).getD (.text "")).fits = (Value.getOrNull name members).fits := by
  rw [Value.getOrNull]
  cases members.get? name <;> rfl

/-- What the map of an element says of a text that a map gives or leaves out. -/
theorem textUnder_compact {name : String} {members kept : Members}
    (hkeys : (kept.map Prod.fst).Nodup)
    (hget : kept.get? name = some ((members.get? name).getD (.text ""))) :
    (members.get? name = some .null → textUnder name members = "None" ∧
      textUnder name (Element.compact kept) = "") ∧
    (members.get? name ≠ some .null →
      textUnder name (Element.compact kept) = textUnder name members) := by
  constructor
  · intro hnull
    rw [hnull] at hget
    rw [textUnder, textUnder, hnull, Element.get?_compact_of_null hkeys hget]
    exact ⟨rfl, rfl⟩
  · intro hshown
    have hne : (members.get? name).getD (.text "") ≠ .null := by
      cases hv : members.get? name with
      | none =>
          intro hnull
          cases hnull
      | some v => exact fun hnull => hshown (hv.trans (congrArg some hnull))
    rw [textUnder, textUnder, Element.get?_compact_of_ne hget hne]
    rfl

/-- Two maps that differ in one text are compared by that text. -/
theorem compared_of_text {f : String → Option Nat → Item} {name : String}
    {members members' : Members} {hides : Prop} (hflex : flexOf members' = flexOf members)
    (hhidden : hides → textUnder name members = "None" ∧ textUnder name members' = "")
    (hshown : ¬ hides → textUnder name members' = textUnder name members)
    (hsmaller : ∀ flex, Smaller (f "None" flex) (f "" flex)) :
    Compared Smaller hides
      ((flexOf members).bind fun flex => .ok (f (textUnder name members) flex))
      ((flexOf members').bind fun flex => .ok (f (textUnder name members') flex)) := by
  rw [hflex]
  by_cases h : hides
  · obtain ⟨hword, hempty⟩ := hhidden h
    rw [hword, hempty]
    cases flexOf members with
    | error e => exact .error e
    | ok flex => exact .smaller h (hsmaller flex)
  · rw [hshown h]
    exact .refl h _

theorem smaller_text (align : String) (style : Option String) (flex : Option Nat) :
    Smaller (.text "None" align style flex) (.text "" align style flex) :=
  size_lt rfl ⟨nofun, nofun⟩ rfl rfl rfl (by decide)

theorem smaller_barcode (barcodeType : String) (flex : Option Nat) :
    Smaller (.barcode "None" barcodeType flex) (.barcode "" barcodeType flex) :=
  size_lt rfl ⟨nofun, nofun⟩ rfl rfl rfl (by decide)

theorem smaller_row {items items' : List Item} (h : AllSmaller items items') (flex : Option Nat) :
    Smaller (.row items flex) (.row items' flex) :=
  size_lt rfl ⟨nofun, nofun⟩ rfl rfl rfl h.length_encodeList_lt

theorem ofValue_text {members : Members} (htype : members.HasType "text") :
    ofValue (.map members) = (checkTexts .text members).bind fun _ =>
      (flexOf members).bind fun flex =>
        .ok (.text (textUnder "text" members) ((textUnder? "align" members).getD "left")
          (textUnder? "style" members) flex) := by
  rw [ofValue_of_kind (ofType?_of_hasType .text htype), ofKind]
  rfl

theorem ofValue_barcode {members : Members} (htype : members.HasType "barcode") :
    ofValue (.map members) = (checkTexts .barcode members).bind fun _ =>
      (flexOf members).bind fun flex =>
        .ok (.barcode (textUnder "code" members)
          ((textUnder? "barcode_type" members).getD "") flex) := by
  rw [ofValue_of_kind (ofType?_of_hasType .barcode htype), ofKind]
  rfl

theorem ofValue_row {members : Members} (htype : members.HasType "row") :
    ofValue (.map members) = (listUnder "children" members).bind fun children =>
      (flexOf members).bind fun flex => .ok (.row children flex) := by
  rw [ofValue_of_kind (ofType?_of_hasType .row htype)]
  rfl

theorem compared_text {members : Members} (htype : members.HasType "text") :
    ∃ e, Element.ofValue (.map members) = .ok e ∧
      Compared Smaller (HasNull (.map members)) (ofValue (.map members)) (ofValue e.toValue) := by
  have hnull : HasNull (.map members) ↔ members.get? "text" = some .null := by
    simp [hasNull_iff, htype, not_hasType htype]
  let t := (members.get? "text").getD (.text "")
  let align := Value.getOrNull "align" members
  let flex := Value.getOrNull "flex" members
  let style := Value.getOrNull "style" members
  refine ⟨.text t align flex style, ?_, ?_⟩
  · have h : (Value.getOrNull "type" members).isText "text" = true := htype
    rw [Element.ofValue]
    exact if_pos h
  · have hmembers (name : String) := Element.getOrNull_text name t align flex style
    have htype' := Element.hasType_text t align flex style
    obtain ⟨hhidden, hshown⟩ := @textUnder_compact "text" members
      [(.text "type", .text "text"), (.text "text", t), (.text "align", align),
        (.text "style", style), (.text "flex", flex)] (by simp) rfl
    rw [← Element.members] at hhidden hshown
    have htexts : checkTexts .text (Element.text t align flex style).members =
        checkTexts .text members := by
      refine checkTexts_congr fun name hname => ?_
      rw [hmembers]
      simp only [Kind.textNames, List.mem_cons, List.not_mem_nil, or_false] at hname
      rcases hname with rfl | rfl | rfl
      · exact fits_getD "text" members
      · rfl
      · rfl
    rw [Element.toValue, ofValue_text htype, ofValue_text htype', htexts,
      textUnder?_congr (hmembers "align" : _ = Value.getOrNull "align" members),
      textUnder?_congr (hmembers "style" : _ = Value.getOrNull "style" members)]
    refine .bind_const fun _ => ?_
    refine compared_of_text (f := fun t flex => .text t ((textUnder? "align" members).getD "left")
      (textUnder? "style" members) flex) (flexOf_congr (hmembers "flex")) ?_ ?_ ?_
    · exact fun h => hhidden (hnull.1 h)
    · exact fun h => hshown fun h' => h (hnull.2 h')
    · exact fun _ => smaller_text _ _ _

theorem compared_barcode {members : Members} (htype : members.HasType "barcode") :
    ∃ e, Element.ofValue (.map members) = .ok e ∧
      Compared Smaller (HasNull (.map members)) (ofValue (.map members)) (ofValue e.toValue) := by
  have hnull : HasNull (.map members) ↔ members.get? "code" = some .null := by
    simp [hasNull_iff, htype, not_hasType htype]
  let code := (members.get? "code").getD (.text "")
  let barcodeType := Value.getOrNull "barcode_type" members
  let flex := Value.getOrNull "flex" members
  refine ⟨.barcode code barcodeType flex, ?_, ?_⟩
  · have htext : ¬ (Value.getOrNull "type" members).isText "text" = true :=
      not_hasType htype (by decide)
    have h : (Value.getOrNull "type" members).isText "barcode" = true := htype
    rw [Element.ofValue]
    exact (if_neg htext).trans (if_pos h)
  · have hmembers (name : String) := Element.getOrNull_barcode name code barcodeType flex
    have htype' := Element.hasType_barcode code barcodeType flex
    obtain ⟨hhidden, hshown⟩ := @textUnder_compact "code" members
      [(.text "type", .text "barcode"), (.text "code", code), (.text "barcode_type", barcodeType),
        (.text "flex", flex)] (by simp) rfl
    rw [← Element.members] at hhidden hshown
    have htexts : checkTexts .barcode (Element.barcode code barcodeType flex).members =
        checkTexts .barcode members := by
      refine checkTexts_congr fun name hname => ?_
      rw [hmembers]
      simp only [Kind.textNames, List.mem_cons, List.not_mem_nil, or_false] at hname
      rcases hname with rfl | rfl
      · exact fits_getD "code" members
      · rfl
    rw [Element.toValue, ofValue_barcode htype, ofValue_barcode htype', htexts,
      textUnder?_congr (hmembers "barcode_type" : _ = Value.getOrNull "barcode_type" members)]
    refine .bind_const fun _ => ?_
    refine compared_of_text
      (f := fun t flex => .barcode t ((textUnder? "barcode_type" members).getD "") flex)
      (flexOf_congr (hmembers "flex")) ?_ ?_ ?_
    · exact fun h => hhidden (hnull.1 h)
    · exact fun h => hshown fun h' => h (hnull.2 h')
    · exact fun _ => smaller_barcode _ _

theorem element_listUnder_of_holdsList {name : String} {members : Members}
    (h : HoldsList name members) :
    Element.listUnder name members = Element.ofItems (elementsUnder name members) := by
  rw [Element.listUnder_eq, elementsUnder]
  cases hget : members.get? name with
  | none => rfl
  | some v =>
      by_cases htruthy : v.truthy = true
      · obtain ⟨es, rfl | rfl⟩ := h v hget htruthy
        · rfl
        · rfl
      · cases v with
        | list es => rfl
        | tuple es => rfl
        | _ => simp only [Element.listOf, Element.ofNoList, htruthy, Element.ofItems]; rfl

theorem compared_row {members : Members} (htype : members.HasType "row")
    (hlist : HoldsList "children" members)
    (h : ∀ v ∈ elementsUnder "children" members, ∃ e, Element.ofValue v = .ok e ∧
      Compared Smaller (HasNull v) (ofValue v) (ofValue e.toValue)) :
    ∃ e, Element.ofValue (.map members) = .ok e ∧
      Compared Smaller (HasNull (.map members)) (ofValue (.map members)) (ofValue e.toValue) := by
  have hnull : HasNull (.map members) ↔ ∃ v ∈ elementsUnder "children" members, HasNull v := by
    simp [hasNull_iff, htype, not_hasType htype]
  obtain ⟨es, hes, hcompared⟩ := exists_elements h
  let flex := Value.getOrNull "flex" members
  refine ⟨.row es flex, ?_, ?_⟩
  · have htext : ¬ (Value.getOrNull "type" members).isText "text" = true :=
      not_hasType htype (by decide)
    have hbarcode : ¬ (Value.getOrNull "type" members).isText "barcode" = true :=
      not_hasType htype (by decide)
    have h : (Value.getOrNull "type" members).isText "row" = true := htype
    rw [Element.ofValue]
    refine (if_neg htext).trans ((if_neg hbarcode).trans ((if_pos h).trans ?_))
    rw [element_listUnder_of_holdsList hlist, hes]
    rfl
  · have hmembers (name : String) := Element.getOrNull_row name es flex
    have htype' := Element.hasType_row es flex
    rw [Element.toValue, ofValue_row htype, ofValue_row htype', listUnder_of_holdsList hlist,
      listUnder_of_holdsList (holdsList_children es flex), elementsUnder_children,
      flexOf_congr (hmembers "flex")]
    refine (hcompared.of_iff hnull.symm).bind ?_
    intro hhidden items items' hsmaller
    cases flexOf members with
    | error e => exact .error e
    | ok n => exact .smaller hhidden (smaller_row hsmaller n)

theorem compared_passthrough {members : Members}
    (h : ∀ name ∈ ["text", "barcode", "row"], ¬ members.HasType name) :
    ∃ e, Element.ofValue (.map members) = .ok e ∧
      Compared Smaller (HasNull (.map members)) (ofValue (.map members)) (ofValue e.toValue) := by
  have htext := h "text" (by decide)
  have hbarcode := h "barcode" (by decide)
  have hrow := h "row" (by decide)
  have hshown : ¬ HasNull (.map members) := by simp [hasNull_iff, htext, hbarcode, hrow]
  refine ⟨.passthrough members, ?_, ?_⟩
  · unfold Members.HasType at htext hbarcode hrow
    rw [Element.ofValue, if_neg htext, if_neg hbarcode, if_neg hrow]
  · rw [Element.toValue, Element.members]
    exact .refl hshown _

/-- An element is read to one whose map gives the same item, or a smaller one if a text or a code is
null. -/
theorem compared_of_isElement {v : Value} (h : IsElement v) :
    ∃ e, Element.ofValue v = .ok e ∧
      Compared Smaller (HasNull v) (ofValue v) (ofValue e.toValue) := by
  induction h with
  | @intro members hlist _ ih =>
      by_cases htext : members.HasType "text"
      · exact compared_text htext
      by_cases hbarcode : members.HasType "barcode"
      · exact compared_barcode hbarcode
      by_cases hrow : members.HasType "row"
      · exact compared_row hrow (hlist hrow) (ih hrow)
      refine compared_passthrough ?_
      simp [htext, hbarcode, hrow]

end Item

theorem encodeValues_list (vs : List Value) :
    encodeValues (.list vs) = (Item.ofItems vs).map encode := rfl

/-- Elements read from maps are encoded to the bytes of the maps, or fail with the same error, unless
a text or a code is null; then the maps take more bytes. -/
theorem encodeElements_eq_iff {vs : List Value} (h : ∀ v ∈ vs, IsElement v) :
    ∃ es, Element.ofItems vs = .ok es ∧
      (encodeElements es = encodeValues (.list vs) ↔
        (∃ e, encodeValues (.list vs) = .error e) ∨ ∀ v ∈ vs, ¬ HasNull v) := by
  obtain ⟨es, hes, hcompared⟩ :=
    Item.exists_elements fun v hv => Item.compared_of_isElement (h v hv)
  refine ⟨es, hes, ?_⟩
  rw [encodeElements, encodeValues_list, encodeValues_list]
  generalize Item.ofItems vs = r, Item.ofItems (Element.toValues es) = r' at hcompared
  cases hcompared with
  | error e => exact iff_of_true rfl (.inl ⟨e, rfl⟩)
  | same hshown items =>
      refine iff_of_true rfl (.inr fun v hv hnull => hshown ⟨v, hv, hnull⟩)
  | @smaller hhidden items items' hsmaller =>
      have hlength := hsmaller.length_encodeList_lt
      refine iff_of_false ?_ ?_
      · intro heq
        have hbytes : encode items' = encode items := Except.ok.inj heq
        simp only [encode, List.append_cancel_left_eq, List.cons.injEq, true_and] at hbytes
        rw [hbytes] at hlength
        exact Nat.lt_irrefl _ hlength
      · rintro (⟨e, he⟩ | hshown)
        · cases he
        · obtain ⟨v, hv, hnull⟩ := hhidden
          exact hshown v hv hnull

/-- A row with a text inside it, which is given, and a code behind it, which is absent. -/
theorem encodeElements_eq_lines :
    let vs : List Value := [
      .map [(.text "type", .text "row"), (.text "children", .list
        [.map [(.text "type", .text "text"), (.text "text", .text "Milk"), (.text "align", .null)]])],
      .map [(.text "type", .text "barcode")]]
    (∀ v ∈ vs, IsElement v) ∧
      ∃ es, Element.ofItems vs = .ok es ∧
        (encodeElements es = encodeValues (.list vs) ↔
          (∃ e, encodeValues (.list vs) = .error e) ∨ ∀ v ∈ vs, ¬ HasNull v) := by
  intro vs
  have h : ∀ v ∈ vs, IsElement v := by
    intro v hv
    rcases List.mem_cons.1 hv with rfl | hv
    · refine .intro (fun _ w hw _ => ⟨_, .inl (Option.some.inj hw).symm⟩) fun _ w hw => ?_
      cases List.mem_singleton.1 hw
      exact isElement_of_not_row (by unfold Members.HasType; decide)
    · cases List.mem_singleton.1 hv
      exact isElement_of_not_row (by unfold Members.HasType; decide)
  exact ⟨h, encodeElements_eq_iff h⟩

/-- A text that is null is encoded as a word, and in its element as nothing. -/
theorem exists_encodeElements_ne :
    ∃ vs es, (∀ v ∈ vs, IsElement v) ∧ Element.ofItems vs = .ok es ∧
      encodeElements es = .ok [0x52, 0x43, 1, 1, 1, 9, 2, 1, 0, 2, 4, 0x6C, 0x65, 0x66, 0x74] ∧
      encodeValues (.list vs) = .ok
        [0x52, 0x43, 1, 1, 1, 13, 2, 1, 4, 0x4E, 0x6F, 0x6E, 0x65, 2, 4, 0x6C, 0x65, 0x66, 0x74] := by
  have hvalues : Element.toValues [.text .null .null .null .null] =
      [.map [(.text "type", .text "text")]] := rfl
  refine ⟨[.map [(.text "type", .text "text"), (.text "text", .null)]],
    [.text .null .null .null .null], ?_, rfl, ?_, by cbv⟩
  · intro v hv
    cases List.mem_singleton.1 hv
    exact isElement_of_not_row (by unfold Members.HasType; decide)
  · rw [encodeElements, hvalues]
    cbv

end Receipt.Codec
