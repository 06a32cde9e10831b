import Mathlib.Data.List.Basic
import Receipt.Proofs.Codec.Frames
import Receipt.Proofs.Text.Utf8

/-!
# Items are read back

A body is read in three steps: its fields, the items inside, and the item, `decodeBody_eq`. What is
read from the chunk of an item is `restored?`: the item is made of its fields and of what is read of
the items inside it, `restored?_eq`. So it is read back if its numbers and lengths can be read, its
conditions are read back from their JSON, and its alignment is not empty: `restored?_eq_some`. A
property of an item and of all items inside it is `Every` of the property; it carries the induction
over what is nested.
-/
namespace Receipt.Codec

namespace Item

def kind : Item → Kind
  | .text .. => .text
  | .picture .. => .picture
  | .barcode .. => .barcode
  | .pageBreak => .pageBreak
  | .horizontalLine => .horizontalLine
  | .row .. => .row
  | .sectionRef .. => .sectionRef
  | .iterator .. => .iterator

/-- The items inside an item. -/
def inner : Item → List Item
  | .row children _ => children
  | .iterator _ rows _ _ => rows
  | _ => []

/-- The item has a property, and so have all items inside it. -/
inductive Every (p : Item → Prop) : Item → Prop
  | intro {item : Item} : p item → (∀ i ∈ item.inner, Every p i) → Every p item

theorem Every.mono {p q : Item → Prop} (hpq : ∀ item, p item → q item) {item : Item}
    (h : Every p item) : Every q item := by
  induction h with
  | intro hp _ ih => exact .intro (hpq _ hp) ih

/-- The fields in the body of an item. -/
def fieldChunks : Item → List Chunk
  | .text t align style flex =>
    [textField .text t, textField .align align] ++ styleFields style ++ flexFields flex
  | .picture url flex => textField .url url :: flexFields flex
  | .barcode code barcodeType flex =>
    [textField .code code, textField .barcodeType barcodeType] ++ flexFields flex
  | .pageBreak => []
  | .horizontalLine => []
  | .row children flex =>
    ⟨Field.children.tag, Chunk.encodeList (chunks children)⟩ :: flexFields flex
  | .sectionRef ref flex => textField .ref ref :: flexFields flex
  | .iterator path rows conditions flex =>
    [textField .path path, ⟨Field.rows.tag, Chunk.encodeList (chunks rows)⟩]
      ++ conditionsFields conditions ++ flexFields flex

/-- Page breaks and lines have no fields, and not even a count of them. -/
def HasFields (kind : Kind) : Prop := kind ≠ .pageBreak ∧ kind ≠ .horizontalLine

theorem chunk_eq {item : Item} (h : HasFields item.kind) :
    item.chunk = ⟨item.kind.code, Chunk.encodeList item.fieldChunks⟩ := by
  obtain ⟨hbreak, hline⟩ := h
  cases item with
  | pageBreak => exact (hbreak rfl).elim
  | horizontalLine => exact (hline rfl).elim
  | _ => rw [chunk]; rfl

theorem tag_chunk (item : Item) : item.chunk.tag = item.kind.code := by
  cases item <;> (rw [chunk]; rfl)

theorem chunks_eq_map (items : List Item) : chunks items = items.map chunk := by
  induction items with
  | nil => rfl
  | cons item items ih => rw [chunks, ih, List.map_cons]

/-- What the fields of an item have to satisfy to be read back. -/
def Readable : Item → Prop
  | .text _ align _ flex => align ≠ "" ∧ ∀ n, flex = some n → n < Varint.limit
  | .picture _ flex => ∀ n, flex = some n → n < Varint.limit
  | .barcode _ _ flex => ∀ n, flex = some n → n < Varint.limit
  | .pageBreak => True
  | .horizontalLine => True
  | .row _ flex => ∀ n, flex = some n → n < Varint.limit
  | .sectionRef _ flex => ∀ n, flex = some n → n < Varint.limit
  | .iterator _ _ conditions flex =>
    (∀ v, conditions = some v → Json.read? (Json.write .line v).toList = .ok v) ∧
      ∀ n, flex = some n → n < Varint.limit

theorem tag_of_mem_flexFields {flex : Option Nat} {c : Chunk} (h : c ∈ flexFields flex) :
    c.tag = Field.flex.tag := by
  cases flex with
  | none => simp [flexFields] at h
  | some n =>
      rw [List.mem_singleton.1 h]

theorem tag_of_mem_styleFields {style : Option String} {c : Chunk} (h : c ∈ styleFields style) :
    c.tag = Field.style.tag := by
  cases style with
  | none => simp [styleFields] at h
  | some s =>
      rw [List.mem_singleton.1 h]
      rfl

theorem tag_of_mem_conditionsFields {conditions : Option Value} {c : Chunk}
    (h : c ∈ conditionsFields conditions) : c.tag = Field.conditions.tag := by
  cases conditions with
  | none => simp [conditionsFields] at h
  | some v =>
      rw [List.mem_singleton.1 h]
      rfl

theorem exists_field_of_mem {item : Item} {c : Chunk} (h : c ∈ item.fieldChunks) :
    ∃ field : Field, c.tag = field.tag := by
  cases item <;> simp only [fieldChunks, List.mem_append, List.mem_cons, List.not_mem_nil] at h <;>
    grind [textField, tag_of_mem_flexFields, tag_of_mem_styleFields, tag_of_mem_conditionsFields]

theorem tag_lt_limit (field : Field) : field.tag < Varint.limit := by
  cases field <;> decide

/-- The fields can be read if the whole body has a length that can be. -/
theorem fields_fieldChunks {item : Item}
    (h : (Chunk.encodeList item.fieldChunks).length < Varint.limit) :
    Chunk.fields (Chunk.encodeList item.fieldChunks) = .ok item.fieldChunks := by
  have hcount := Chunk.length_lt_encodeList item.fieldChunks
  have hfits : ∀ c ∈ item.fieldChunks, c.Fits := by
    intro c hc
    obtain ⟨field, htag⟩ := exists_field_of_mem hc
    have hbody := Chunk.length_body_lt_encodeList hc
    refine ⟨?_, by omega⟩
    rw [htag]
    exact tag_lt_limit field
  have hfields := Chunk.fields_encodeList (Nat.lt_trans hcount h) hfits []
  rwa [List.append_nil] at hfields

theorem fieldText_eq {field : Field} {fields : List Chunk} {s : String}
    (h : Chunk.find? field.tag fields = some (Text.Utf8.ofString s)) :
    fieldText field fields = s := by
  rw [fieldText, h, Option.getD_some, Text.Utf8.decodeLossy_ofString]

theorem fieldText?_eq {field : Field} {fields : List Chunk} {s : Option String}
    (h : Chunk.find? field.tag fields = s.map Text.Utf8.ofString) :
    fieldText? field fields = s := by
  cases s with
  | none => rw [fieldText?, h]; rfl
  | some s => rw [fieldText?, h, Option.map_some, Option.map_some, fieldText_eq h]

theorem fieldAlign_eq {fields : List Chunk} {s : String} (hs : s ≠ "")
    (h : Chunk.find? Field.align.tag fields = some (Text.Utf8.ofString s)) :
    fieldAlign fields = s := by
  unfold fieldAlign
  rw [fieldText_eq h]
  split
  · next hempty => exact (hs rfl).elim
  · rfl

theorem fieldFlex?_eq {fields : List Chunk} {flex : Option Nat}
    (hflex : ∀ n, flex = some n → n < Varint.limit)
    (h : Chunk.find? Field.flex.tag fields = flex.map Varint.encode) :
    fieldFlex? fields = some flex := by
  cases flex with
  | none => rw [fieldFlex?, h]; rfl
  | some n =>
      have hread := Varint.read_encode (hflex n rfl) []
      rw [List.append_nil] at hread
      simp only [fieldFlex?, h, Option.map_some, hread]

theorem fieldConditions?_eq {fields : List Chunk} {conditions : Option Value}
    (hread : ∀ v, conditions = some v → Json.read? (Json.write .line v).toList = .ok v)
    (h : Chunk.find? Field.conditions.tag fields =
      (conditions.map (Json.write .line)).map Text.Utf8.ofString) :
    fieldConditions? fields = some conditions := by
  cases conditions with
  | none => rw [fieldConditions?, fieldText?_eq h]; rfl
  | some v => simp only [fieldConditions?, fieldText?_eq h, Option.map_some, hread v rfl]

/-- What a field of an item holds. -/
def fieldBytes : Item → Field → Option (List UInt8)
  | .text t _ _ _, .text => some (Text.Utf8.ofString t)
  | .text _ align _ _, .align => some (Text.Utf8.ofString align)
  | .text _ _ style _, .style => style.map Text.Utf8.ofString
  | .text _ _ _ flex, .flex => flex.map Varint.encode
  | .picture url _, .url => some (Text.Utf8.ofString url)
  | .picture _ flex, .flex => flex.map Varint.encode
  | .barcode code _ _, .code => some (Text.Utf8.ofString code)
  | .barcode _ barcodeType _, .barcodeType => some (Text.Utf8.ofString barcodeType)
  | .barcode _ _ flex, .flex => flex.map Varint.encode
  | .row children _, .children => some (Chunk.encodeList (chunks children))
  | .row _ flex, .flex => flex.map Varint.encode
  | .sectionRef ref _, .ref => some (Text.Utf8.ofString ref)
  | .sectionRef _ flex, .flex => flex.map Varint.encode
  | .iterator path _ _ _, .path => some (Text.Utf8.ofString path)
  | .iterator _ rows _ _, .rows => some (Chunk.encodeList (chunks rows))
  | .iterator _ _ conditions _, .conditions =>
    (conditions.map (Json.write .line)).map Text.Utf8.ofString
  | .iterator _ _ _ flex, .flex => flex.map Varint.encode
  | _, _ => none

theorem find?_fieldChunks (item : Item) (field : Field) :
    Chunk.find? field.tag item.fieldChunks = item.fieldBytes field := by
  cases item with
  | text t align style flex => cases style <;> cases flex <;> cases field <;> rfl
  | picture url flex => cases flex <;> cases field <;> rfl
  | barcode code barcodeType flex => cases flex <;> cases field <;> rfl
  | pageBreak => cases field <;> rfl
  | horizontalLine => cases field <;> rfl
  | row children flex => cases flex <;> cases field <;> rfl
  | sectionRef ref flex => cases flex <;> cases field <;> rfl
  | iterator path rows conditions flex => cases conditions <;> cases flex <;> cases field <;> rfl

theorem ofFields?_fieldChunks {item : Item} (h : item.Readable) :
    ofFields? item.kind item.fieldChunks item.inner = some item := by
  have hfind := item.find?_fieldChunks
  cases item with
  | text t align style flex =>
      have hflex := fieldFlex?_eq h.2 (hfind .flex)
      have htext := fieldText_eq (hfind .text)
      have halign := fieldAlign_eq h.1 (hfind .align)
      have hstyle := fieldText?_eq (hfind .style)
      simp only [ofFields?, kind, hflex, htext, halign, hstyle, bind, Option.bind, pure]
  | picture url flex =>
      have hflex := fieldFlex?_eq h (hfind .flex)
      have hurl := fieldText_eq (hfind .url)
      simp only [ofFields?, kind, hflex, hurl, bind, Option.bind, pure]
  | barcode code barcodeType flex =>
      have hflex := fieldFlex?_eq h (hfind .flex)
      have hcode := fieldText_eq (hfind .code)
      have htype := fieldText_eq (hfind .barcodeType)
      simp only [ofFields?, kind, hflex, hcode, htype, bind, Option.bind, pure]
  | pageBreak => rfl
  | horizontalLine => rfl
  | row children flex =>
      have hflex := fieldFlex?_eq h (hfind .flex)
      simp only [ofFields?, kind, inner, hflex, bind, Option.bind, pure]
  | sectionRef ref flex =>
      have hflex := fieldFlex?_eq h (hfind .flex)
      have href := fieldText_eq (hfind .ref)
      simp only [ofFields?, kind, hflex, href, bind, Option.bind, pure]
  | iterator path rows conditions flex =>
      have hflex := fieldFlex?_eq h.2 (hfind .flex)
      have hpath := fieldText_eq (hfind .path)
      have hconditions := fieldConditions?_eq h.1 (hfind .conditions)
      simp only [ofFields?, kind, inner, hflex, hpath, hconditions, bind, Option.bind, pure]

/-- The field that holds the items inside an item is the list of their chunks. -/
theorem nested?_fieldChunks (item : Item) :
    nested? item.kind item.fieldChunks = none ∧ item.inner = [] ∨
      nested? item.kind item.fieldChunks = some (Chunk.encodeList (chunks item.inner)) := by
  have hfind := item.find?_fieldChunks
  cases item with
  | row children flex => exact .inr (hfind .children)
  | iterator path rows conditions flex => exact .inr (hfind .rows)
  | _ => exact .inl ⟨rfl, rfl⟩

/-- The items inside an item with the given fields; none if they cannot be read. -/
def innerItems? (kind : Kind) (fields : List Chunk) : Option (List Item) :=
  match nested? kind fields with
  | none => some []
  | some bytes => (decodeList bytes).toOption

/-- A body is read in three steps: its fields, the items inside, and the item. -/
theorem decodeBody_eq {kind : Kind} (hkind : HasFields kind) (body : List UInt8) :
    decodeBody kind.code body = (Chunk.fields body).toOption.bind fun fields =>
      (innerItems? kind fields).bind (ofFields? kind fields) := by
  rw [decodeBody, Kind.ofCode?_code]
  split
  · next hnone => cases hnone
  · next hbreak => exact (hkind.1 (Option.some.inj hbreak)).elim
  · next hline => exact (hkind.2 (Option.some.inj hline)).elim
  · next k _ _ hk =>
    cases hk
    split
    · next e herror =>
      rw [herror]
      rfl
    · next fields hfields =>
      rw [hfields, Except.toOption, Option.bind_some, innerItems?]
      split
      · next hn => rw [hn]; rfl
      · next bytes hn =>
        rw [hn]
        dsimp only
        cases decodeList bytes <;> rfl

theorem decodeBody_of_fields {kind : Kind} {body : List UInt8} {fields : List Chunk}
    (hkind : HasFields kind) (hfields : Chunk.fields body = .ok fields) {items : List Item}
    (hitems : nested? kind fields = none ∧ items = [] ∨
      ∃ bytes, nested? kind fields = some bytes ∧ decodeList bytes = .ok items) :
    decodeBody kind.code body = ofFields? kind fields items := by
  have hinner : innerItems? kind fields = some items := by
    rw [innerItems?]
    rcases hitems with ⟨hnone, rfl⟩ | ⟨bytes, hbytes, hlist⟩
    · rw [hnone]
    · rw [hbytes]
      simp only [hlist, Except.toOption]
  rw [decodeBody_eq hkind, hfields, Except.toOption, Option.bind_some, hinner, Option.bind_some]

/-- Where there are no fields, the body is not looked at. -/
theorem decodeBody_of_not_hasFields {kind : Kind} (h : ¬ HasFields kind) (body : List UInt8) :
    decodeBody kind.code body = ofFields? kind [] [] := by
  cases kind with
  | pageBreak =>
      rw [decodeBody]
      rfl
  | horizontalLine =>
      rw [decodeBody]
      rfl
  | _ => exact (h ⟨by decide, by decide⟩).elim

theorem eq_of_not_hasFields {item : Item} (h : ¬ HasFields item.kind) :
    item = .pageBreak ∨ item = .horizontalLine := by
  cases item with
  | pageBreak => exact .inl rfl
  | horizontalLine => exact .inr rfl
  | _ =>
      refine (h ?_).elim
      constructor <;> intro hkind <;> cases hkind

/-- What is read from the chunk of an item. -/
def restored? (item : Item) : Option Item := decodeBody item.chunk.tag item.chunk.body

theorem restored?_of_not_hasFields {item : Item} (h : ¬ HasFields item.kind) :
    item.restored? = some item := by
  rw [restored?, tag_chunk, decodeBody_of_not_hasFields h]
  rcases eq_of_not_hasFields h with rfl | rfl
  · rfl
  · rfl

theorem itemsOf_chunks (items : List Item) :
    itemsOf (chunks items) = items.filterMap restored? := by
  rw [itemsOf, chunks_eq_map, List.flatMap_map, List.filterMap_eq_flatMap_toList]
  rfl

theorem filterMap_restored? {items : List Item} (h : ∀ i ∈ items, i.restored? = some i) :
    items.filterMap restored? = items := by
  rw [List.filterMap_eq_map_iff_forall_eq_some.2 h, List.map_id']

theorem code_lt_limit (kind : Kind) : kind.code < Varint.limit := by
  cases kind <;> decide

theorem fits_of_mem_chunks {items : List Item}
    (h : ∀ i ∈ items, i.chunk.body.length < Varint.limit) : ∀ c ∈ chunks items, c.Fits := by
  intro c hc
  rw [chunks_eq_map] at hc
  obtain ⟨i, hi, rfl⟩ := List.mem_map.1 hc
  refine ⟨?_, h i hi⟩
  rw [tag_chunk]
  exact code_lt_limit _

theorem frames_chunks {items : List Item} (hcount : items.length < Varint.limit)
    (hfits : ∀ i ∈ items, i.chunk.body.length < Varint.limit) :
    frames (Chunk.encodeList (chunks items)) = .ok (chunks items) := by
  refine frames_encodeList ?_ (fits_of_mem_chunks hfits)
  rwa [chunks_eq_map, List.length_map]

/-- What lies in a list of items is shorter than the list. -/
theorem length_lt_of_mem_chunks {items : List Item} {i : Item} (h : i ∈ items) :
    i.chunk.body.length < (Chunk.encodeList (chunks items)).length := by
  refine Chunk.length_body_lt_encodeList ?_
  rw [chunks_eq_map]
  exact List.mem_map_of_mem h

/-- A list inside an item is read item by item, and what cannot be read is left out. -/
theorem decodeList_chunks {items : List Item}
    (h : (Chunk.encodeList (chunks items)).length < Varint.limit) :
    decodeList (Chunk.encodeList (chunks items)) = .ok (items.filterMap restored?) := by
  have hcount := Chunk.length_lt_encodeList (chunks items)
  rw [chunks_eq_map, List.length_map, ← chunks_eq_map] at hcount
  have hframes := frames_chunks (Nat.lt_trans hcount h) fun i hi =>
    Nat.lt_trans (length_lt_of_mem_chunks hi) h
  rw [decodeList_eq, hframes, ← itemsOf_chunks]
  rfl

/-- The items inside are read first, and those that are left out do not matter to the item. -/
theorem restored?_eq {item : Item} (hkind : HasFields item.kind)
    (hfits : item.chunk.body.length < Varint.limit) :
    item.restored? = ofFields? item.kind item.fieldChunks (item.inner.filterMap restored?) := by
  rw [restored?]
  rw [chunk_eq hkind] at hfits ⊢
  have hfields := fields_fieldChunks hfits
  refine decodeBody_of_fields hkind hfields (item.nested?_fieldChunks.imp ?_ ?_)
  · rintro ⟨hnone, hinner⟩
    rw [hinner]
    exact ⟨hnone, rfl⟩
  · intro hn
    exact ⟨_, hn, decodeList_chunks (Nat.lt_trans (nested?_lt hfields hn) hfits)⟩

/-- The lengths inside an item are less than its own. -/
theorem length_lt_of_mem_inner {item i : Item} (hi : i ∈ item.inner)
    (hfits : item.chunk.body.length < Varint.limit) : i.chunk.body.length < Varint.limit := by
  by_cases hkind : HasFields item.kind
  · rw [chunk_eq hkind] at hfits
    have hfields := fields_fieldChunks hfits
    rcases item.nested?_fieldChunks with ⟨-, hnone⟩ | hn
    · rw [hnone] at hi
      cases hi
    · have hlist := Nat.lt_trans (nested?_lt hfields hn) hfits
      exact Nat.lt_trans (length_lt_of_mem_chunks hi) hlist
  · rcases eq_of_not_hasFields hkind with rfl | rfl
    · cases hi
    · cases hi

/-- An item is read back from its chunk. -/
theorem restored?_eq_some {item : Item} (h : item.Every Readable)
    (hfits : item.chunk.body.length < Varint.limit) : item.restored? = some item := by
  induction h with
  | @intro item hread _ ih =>
      by_cases hkind : HasFields item.kind
      · have hinner : item.inner.filterMap restored? = item.inner :=
          filterMap_restored? fun i hi => ih i hi (length_lt_of_mem_inner hi hfits)
        rw [restored?_eq hkind hfits, hinner, ofFields?_fieldChunks hread]
      · exact restored?_of_not_hasFields hkind

end Item

/-- What is read from encoded items is what is read from each of them. -/
theorem decodeValues_encode_eq {items : List Item} (hcount : items.length < Varint.limit)
    (hfits : ∀ i ∈ items, i.chunk.body.length < Varint.limit) :
    decodeValues (encode items) = .ok (valuesOf (Item.chunks items)) := by
  have hencode : encode items = header ++ Chunk.encodeList (Item.chunks items) := rfl
  rw [hencode, decodeValues_header, Item.frames_chunks hcount hfits]
  rfl

/-- Encoded items are read back. -/
theorem decodeValues_encode {items : List Item} (h : ∀ i ∈ items, i.Every Item.Readable)
    (hcount : items.length < Varint.limit)
    (hfits : ∀ i ∈ items, i.chunk.body.length < Varint.limit) :
    decodeValues (encode items) = .ok (Item.toValues items) := by
  have hitems := Item.filterMap_restored? fun i hi => Item.restored?_eq_some (h i hi) (hfits i hi)
  rw [decodeValues_encode_eq hcount hfits, ← toValues_itemsOf, Item.itemsOf_chunks, hitems]

end Receipt.Codec
