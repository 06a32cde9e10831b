import Mathlib.Logic.Relation
import Receipt.Proofs.Codec.RoundTrip

/-!
# Unknown chunks are skipped

A list of chunks may get chunks more whose tags are those of no item or field, at any depth:
`Inserted` is one such step. A step keeps what is read, `Inserted.agree`, so any number of steps
does: `decodeValues_inserted`. Only the tags have to be numbers that can be read, since one that
takes too many groups stops the reader, `decodeValues_unreadable_tag`.
-/
namespace Receipt.Codec

namespace Chunk

/-- The count of the chunks and the lengths of their bodies can be read back. -/
def LengthsFit (chunks : List Chunk) : Prop :=
  chunks.length < Varint.limit ∧ ∀ c ∈ chunks, c.body.length < Varint.limit

/-- What fits into a body of a length that can be read back has such lengths too. -/
theorem lengthsFit_of_encodeList {chunks : List Chunk}
    (h : (encodeList chunks).length < Varint.limit) : LengthsFit chunks := by
  constructor
  · exact Nat.lt_trans (length_lt_encodeList chunks) h
  · intro c hc
    exact Nat.lt_trans (length_body_lt_encodeList hc) h

theorem length_encodeList_insert (before after : List Chunk) (c : Chunk) :
    (encodeList (before ++ after)).length ≤ (encodeList (before ++ c :: after)).length := by
  have hcount : (before ++ after).length ≤ (before ++ c :: after).length := by
    simp only [List.length_append, List.length_cons]
    omega
  have hnumber := Varint.length_encode_mono hcount
  simp only [encodeList, List.flatMap_append, List.flatMap_cons, List.length_append] at hnumber ⊢
  omega

theorem length_encode_le {c d : Chunk} (htag : c.tag = d.tag)
    (hbody : c.body.length ≤ d.body.length) : c.encode.length ≤ d.encode.length := by
  have hnumber := Varint.length_encode_mono hbody
  simp only [encode, htag, List.length_append]
  omega

theorem length_encodeList_replace {before after : List Chunk} {c d : Chunk} (htag : c.tag = d.tag)
    (hbody : c.body.length ≤ d.body.length) :
    (encodeList (before ++ c :: after)).length ≤ (encodeList (before ++ d :: after)).length := by
  have hchunk := length_encode_le htag hbody
  simp only [encodeList, List.flatMap_append, List.flatMap_cons, List.length_append,
    List.length_cons]
  omega

theorem forall_mem_append_cons {p : Chunk → Prop} {before after : List Chunk} {c : Chunk} :
    (∀ d ∈ before ++ c :: after, p d) ↔ p c ∧ ∀ d ∈ before ++ after, p d := by
  rw [List.forall_mem_append, List.forall_mem_cons, List.forall_mem_append, and_left_comm]

theorem LengthsFit.remove {before after : List Chunk} {c : Chunk}
    (h : LengthsFit (before ++ c :: after)) : LengthsFit (before ++ after) := by
  obtain ⟨hcount, hlength⟩ := h
  constructor
  · simp only [List.length_append, List.length_cons] at hcount ⊢
    omega
  · exact (forall_mem_append_cons.1 hlength).2

theorem LengthsFit.replace {before after : List Chunk} {c d : Chunk}
    (h : LengthsFit (before ++ d :: after)) (hbody : c.body.length ≤ d.body.length) :
    LengthsFit (before ++ c :: after) := by
  obtain ⟨hcount, hlength⟩ := h
  obtain ⟨hd, hothers⟩ := forall_mem_append_cons.1 hlength
  constructor
  · simp only [List.length_append, List.length_cons] at hcount ⊢
    exact hcount
  · exact forall_mem_append_cons.2 ⟨Nat.lt_of_le_of_lt hbody hd, hothers⟩

/-- All tags can be read back. -/
def TagsFit (chunks : List Chunk) : Prop := ∀ c ∈ chunks, c.tag < Varint.limit

theorem tagsFit_append_cons {before after : List Chunk} {c : Chunk} :
    TagsFit (before ++ c :: after) ↔ c.tag < Varint.limit ∧ TagsFit (before ++ after) :=
  forall_mem_append_cons

theorem LengthsFit.fits {chunks : List Chunk} (h : LengthsFit chunks) (htags : TagsFit chunks) :
    ∀ c ∈ chunks, c.Fits :=
  fun c hc => ⟨htags c hc, h.2 c hc⟩

theorem exists_not_fits_of_not_tagsFit {chunks : List Chunk} (h : ¬ TagsFit chunks) :
    ∃ c ∈ chunks, ¬ c.Fits := by
  simp only [TagsFit, not_forall] at h
  obtain ⟨c, hc, htag⟩ := h
  exact ⟨c, hc, fun hfits => htag hfits.1⟩

theorem fields_encodeList_eq_ok {chunks : List Chunk} (hlengths : LengthsFit chunks)
    (htags : TagsFit chunks) : fields (encodeList chunks) = .ok chunks := by
  have h := fields_encodeList hlengths.1 (hlengths.fits htags) []
  rwa [List.append_nil] at h

theorem fields_encodeList_eq_error {chunks : List Chunk} (hlengths : LengthsFit chunks)
    (htags : ¬ TagsFit chunks) : fields (encodeList chunks) = .error .tooLong := by
  have h := fields_encodeList_of_not_fits hlengths.1 (exists_not_fits_of_not_tagsFit htags) []
  rwa [List.append_nil] at h

theorem find?_append (tag : Nat) (first second : List Chunk) :
    find? tag (first ++ second) = (find? tag second).or (find? tag first) := by
  induction first with
  | nil => rw [List.nil_append, find?, Option.or_none]
  | cons c first ih =>
      rw [List.cons_append, find?, find?, ih]
      cases find? tag second <;> rfl

theorem find?_cons_of_ne {tag : Nat} {c : Chunk} (h : c.tag ≠ tag) (rest : List Chunk) :
    find? tag (c :: rest) = find? tag rest := by
  rw [find?, if_neg h]
  cases find? tag rest <;> rfl

theorem find?_insert {tag : Nat} {c : Chunk} (h : c.tag ≠ tag) (before after : List Chunk) :
    find? tag (before ++ c :: after) = find? tag (before ++ after) := by
  rw [find?_append, find?_append, find?_cons_of_ne h]

/-- The last chunk with a tag is one behind, or this one. -/
theorem find?_append_cons (before after : List Chunk) (c : Chunk) :
    find? c.tag (before ++ c :: after) = some ((find? c.tag after).getD c.body) := by
  rw [find?_append, find?, if_pos rfl]
  cases find? c.tag after <;> rfl

end Chunk

open Chunk

/-- The field with the items inside an item of a kind. -/
def innerField : Kind → Option Field
  | .row => some .children
  | .iterator => some .rows
  | _ => none

theorem Field.tag_inj {field other : Field} (h : field.tag = other.tag) : field = other := by
  cases field <;> cases other <;> first | rfl | cases h

theorem nested?_eq (kind : Kind) (fields : List Chunk) :
    nested? kind fields = (innerField kind).bind fun field => find? field.tag fields := by
  cases kind <;> rfl

/-- What a list of chunks holds: items, or the fields of an item of a kind. -/
inductive Place where
  | items
  | fields (kind : Kind)

/-- The tag is that of no item or field that the format knows at the place. -/
def Place.Unknown : Place → Nat → Prop
  | .items, tag => ∀ kind : Kind, tag ≠ kind.code
  | .fields _, tag => ∀ field : Field, tag ≠ field.tag

/-- The body of an item with such fields: without any, the body may be empty. -/
def FieldsBody (fields : List Chunk) (body : List UInt8) : Prop :=
  body = encodeList fields ∨ fields = [] ∧ body = []

/-- A list gets one unknown chunk more, in the list itself, in the fields of an item or in the items
inside an item. -/
inductive Inserted : Place → List Chunk → List Chunk → Prop
  | chunk {place : Place} {c : Chunk} (before after : List Chunk) :
      place.Unknown c.tag → c.tag < Varint.limit →
      Inserted place (before ++ after) (before ++ c :: after)
  | fields {kind : Kind} {body : List UInt8} {fields longer : List Chunk}
      (before after : List Chunk) :
      FieldsBody fields body → Inserted (.fields kind) fields longer →
      Inserted .items (before ++ ⟨kind.code, body⟩ :: after)
        (before ++ ⟨kind.code, encodeList longer⟩ :: after)
  | inner {kind : Kind} {field : Field} {chunks longer : List Chunk} (before after : List Chunk) :
      innerField kind = some field → Inserted .items chunks longer →
      Inserted (.fields kind) (before ++ ⟨field.tag, encodeList chunks⟩ :: after)
        (before ++ ⟨field.tag, encodeList longer⟩ :: after)

/-- The same is read from two lists. -/
def Place.Agree : Place → List Chunk → List Chunk → Prop
  | .items, chunks, longer => itemsOf chunks = itemsOf longer
  | .fields kind, chunks, longer =>
    decodeBody kind.code (encodeList chunks) = decodeBody kind.code (encodeList longer)

theorem FieldsBody.length_le {fields : List Chunk} {body : List UInt8}
    (h : FieldsBody fields body) : body.length ≤ (encodeList fields).length := by
  rcases h with rfl | ⟨-, rfl⟩
  · exact Nat.le_refl _
  · exact Nat.zero_le _

namespace Inserted

variable {place : Place} {chunks longer : List Chunk}

theorem length_le (h : Inserted place chunks longer) :
    (encodeList chunks).length ≤ (encodeList longer).length := by
  induction h with
  | chunk before after hunknown htag => exact length_encodeList_insert before after _
  | fields before after hbody _ ih =>
      exact length_encodeList_replace rfl (Nat.le_trans hbody.length_le ih)
  | inner before after hfield _ ih => exact length_encodeList_replace rfl ih

theorem lengthsFit (h : Inserted place chunks longer) (hfit : LengthsFit longer) :
    LengthsFit chunks := by
  cases h with
  | chunk before after hunknown htag => exact hfit.remove
  | fields before after hbody hfields =>
      exact hfit.replace (Nat.le_trans hbody.length_le hfields.length_le)
  | inner before after hfield hinner => exact hfit.replace hinner.length_le

theorem tagsFit_iff (h : Inserted place chunks longer) : TagsFit longer ↔ TagsFit chunks := by
  cases h with
  | chunk before after hunknown htag => rw [tagsFit_append_cons, and_iff_right htag]
  | fields before after hbody hfields => rw [tagsFit_append_cons, tagsFit_append_cons]
  | inner before after hfield hinner => rw [tagsFit_append_cons, tagsFit_append_cons]

end Inserted

section Fields

variable {kind : Kind} {fields longer : List Chunk}

theorem fieldText_congr {field : Field}
    (h : find? field.tag fields = find? field.tag longer) :
    fieldText field fields = fieldText field longer := by
  rw [fieldText, fieldText, h]

theorem fieldText?_congr {field : Field}
    (h : find? field.tag fields = find? field.tag longer) :
    fieldText? field fields = fieldText? field longer := by
  rw [fieldText?, fieldText?, h, fieldText_congr h]

theorem fieldAlign_congr (h : find? Field.align.tag fields = find? Field.align.tag longer) :
    fieldAlign fields = fieldAlign longer := by
  rw [fieldAlign, fieldAlign, fieldText_congr h]

theorem fieldFlex?_congr (h : find? Field.flex.tag fields = find? Field.flex.tag longer) :
    fieldFlex? fields = fieldFlex? longer := by
  rw [fieldFlex?, fieldFlex?, h]

theorem fieldConditions?_congr
    (h : find? Field.conditions.tag fields = find? Field.conditions.tag longer) :
    fieldConditions? fields = fieldConditions? longer := by
  rw [fieldConditions?, fieldConditions?, fieldText?_congr h]

/-- An item is made of its fields but for the one with the items inside. -/
theorem ofFields?_congr (items : List Item)
    (h : ∀ field, innerField kind ≠ some field →
      find? field.tag fields = find? field.tag longer) :
    Item.ofFields? kind fields items = Item.ofFields? kind longer items := by
  have hflex : fieldFlex? fields = fieldFlex? longer := by
    apply fieldFlex?_congr
    apply h
    cases kind <;> simp [innerField]
  rw [Item.ofFields?, Item.ofFields?, hflex]
  cases kind with
  | text =>
      simp only [fieldText_congr (h .text (by decide)), fieldAlign_congr (h .align (by decide)),
        fieldText?_congr (h .style (by decide))]
  | picture => simp only [fieldText_congr (h .url (by decide))]
  | barcode =>
      simp only [fieldText_congr (h .code (by decide)),
        fieldText_congr (h .barcodeType (by decide))]
  | pageBreak => rfl
  | horizontalLine => rfl
  | row => rfl
  | sectionRef => simp only [fieldText_congr (h .ref (by decide))]
  | iterator =>
      simp only [fieldText_congr (h .path (by decide)),
        fieldConditions?_congr (h .conditions (by decide))]

/-- Two lists of fields are the same item if what it is made of is the same. -/
theorem decodeBody_congr (hfit : LengthsFit fields) (hfit' : LengthsFit longer)
    (htags : TagsFit longer ↔ TagsFit fields)
    (hfind : ∀ field, innerField kind ≠ some field →
      find? field.tag fields = find? field.tag longer)
    (hinner : Item.innerItems? kind fields = Item.innerItems? kind longer) :
    decodeBody kind.code (encodeList fields) = decodeBody kind.code (encodeList longer) := by
  by_cases hkind : Item.HasFields kind
  · rw [Item.decodeBody_eq hkind, Item.decodeBody_eq hkind]
    by_cases h : TagsFit fields
    · rw [fields_encodeList_eq_ok hfit h, fields_encodeList_eq_ok hfit' (htags.2 h)]
      simp only [Except.toOption, Option.bind_some, hinner]
      congr 1
      funext items
      exact ofFields?_congr items hfind
    · rw [fields_encodeList_eq_error hfit h, fields_encodeList_eq_error hfit' (mt htags.1 h)]
  · rw [Item.decodeBody_of_not_hasFields hkind, Item.decodeBody_of_not_hasFields hkind]

/-- An item without fields need not have a count of them. -/
theorem FieldsBody.decodeBody_eq {body : List UInt8} (h : FieldsBody fields body) :
    decodeBody kind.code body = decodeBody kind.code (encodeList fields) := by
  rcases h with rfl | ⟨rfl, rfl⟩
  · rfl
  · by_cases hkind : Item.HasFields kind
    · have hempty : Chunk.fields (encodeList []) = .ok [] :=
        fields_encodeList_eq_ok ⟨by decide, nofun⟩ nofun
      rw [Item.decodeBody_eq hkind, Item.decodeBody_eq hkind, hempty]
      rfl
    · rw [Item.decodeBody_of_not_hasFields hkind, Item.decodeBody_of_not_hasFields hkind]

end Fields

theorem itemsOf_append_cons (before after : List Chunk) (c : Chunk) :
    itemsOf (before ++ c :: after) =
      itemsOf before ++ ((decodeBody c.tag c.body).toList ++ itemsOf after) := by
  simp only [itemsOf, List.flatMap_append, List.flatMap_cons]

theorem decodeBody_of_unknown {tag : Nat} (h : Place.items.Unknown tag) (body : List UInt8) :
    decodeBody tag body = none := by
  have hnone : Kind.ofCode? tag = none := by
    rw [Kind.ofCode?, List.find?_eq_none]
    intro kind _ hkind
    exact h kind (of_decide_eq_true hkind).symm
  rw [decodeBody, hnone]

theorem decodeList_congr {chunks longer : List Chunk} (hfit : LengthsFit chunks)
    (hfit' : LengthsFit longer) (htags : TagsFit longer ↔ TagsFit chunks)
    (h : Place.items.Agree chunks longer) :
    decodeList (encodeList chunks) = decodeList (encodeList longer) := by
  rw [decodeList_eq, decodeList_eq]
  by_cases hchunks : TagsFit chunks
  · rw [frames_encodeList hfit.1 (hfit.fits hchunks),
      frames_encodeList hfit'.1 (hfit'.fits (htags.2 hchunks))]
    exact congrArg Except.ok h
  · rw [frames_encodeList_of_not_fits (.inr (exists_not_fits_of_not_tagsFit hchunks)),
      frames_encodeList_of_not_fits (.inr (exists_not_fits_of_not_tagsFit (mt htags.1 hchunks)))]

/-- One unknown chunk more, at any depth, does not change what is read. -/
theorem Inserted.agree {place : Place} {chunks longer : List Chunk}
    (h : Inserted place chunks longer) (hfit : LengthsFit longer) : place.Agree chunks longer := by
  induction h with
  | @chunk place c before after hunknown htag =>
      cases place with
      | items =>
          change itemsOf _ = itemsOf _
          rw [itemsOf_append_cons, decodeBody_of_unknown hunknown]
          simp only [itemsOf, List.flatMap_append, Option.toList_none, List.nil_append]
      | fields kind =>
          have hstep : Inserted (.fields kind) (before ++ after) (before ++ c :: after) :=
            .chunk before after hunknown htag
          have hfind : ∀ field : Field,
              find? field.tag (before ++ after) = find? field.tag (before ++ c :: after) :=
            fun field => (find?_insert (hunknown field) before after).symm
          refine decodeBody_congr (hstep.lengthsFit hfit) hfit hstep.tagsFit_iff
            (fun field _ => hfind field) ?_
          rw [Item.innerItems?, Item.innerItems?, nested?_eq, nested?_eq]
          simp only [hfind]
  | @fields kind body fields longer before after hbody hfields ih =>
      have hlonger : LengthsFit longer :=
        lengthsFit_of_encodeList (hfit.2 _ (List.mem_append_right _ List.mem_cons_self))
      have hsame : decodeBody kind.code (encodeList fields) =
          decodeBody kind.code (encodeList longer) := ih hlonger
      change itemsOf _ = itemsOf _
      rw [itemsOf_append_cons, itemsOf_append_cons, hbody.decodeBody_eq, hsame]
  | @inner kind field chunks longer before after hfield hinner ih =>
      have hstep : Inserted (.fields kind) (before ++ ⟨field.tag, encodeList chunks⟩ :: after)
          (before ++ ⟨field.tag, encodeList longer⟩ :: after) := .inner before after hfield hinner
      have hlonger : LengthsFit longer :=
        lengthsFit_of_encodeList (hfit.2 _ (List.mem_append_right _ List.mem_cons_self))
      have hlist : decodeList (encodeList chunks) = decodeList (encodeList longer) :=
        decodeList_congr (hinner.lengthsFit hlonger) hlonger hinner.tagsFit_iff (ih hlonger)
      refine decodeBody_congr (hstep.lengthsFit hfit) hfit hstep.tagsFit_iff ?_ ?_
      · intro other hother
        have hne : field.tag ≠ other.tag := fun htag => hother (by
          rw [hfield, Field.tag_inj htag])
        rw [find?_insert hne, find?_insert hne]
      · rw [Item.innerItems?, Item.innerItems?, nested?_eq, nested?_eq, hfield]
        simp only [Option.bind_some]
        rw [find?_append_cons before after ⟨field.tag, encodeList chunks⟩,
          find?_append_cons before after ⟨field.tag, encodeList longer⟩]
        -- A later field with the same tag counts, and it is the same in both.
        cases find? field.tag after with
        | none => simp only [Option.getD_none, hlist]
        | some body => rfl

/-- So any number of unknown chunks does not either. -/
theorem agree_of_inserted {chunks longer : List Chunk}
    (h : Relation.ReflTransGen (Inserted .items) chunks longer) (hfit : LengthsFit longer) :
    LengthsFit chunks ∧ (TagsFit longer ↔ TagsFit chunks) ∧ itemsOf chunks = itemsOf longer := by
  induction h with
  | refl => exact ⟨hfit, Iff.rfl, rfl⟩
  | tail _ hstep ih =>
      obtain ⟨hlengths, htags, hitems⟩ := ih (hstep.lengthsFit hfit)
      have hagree : itemsOf _ = itemsOf _ := hstep.agree hfit
      exact ⟨hlengths, hstep.tagsFit_iff.trans htags, hitems.trans hagree⟩

theorem tagsFit_chunks (items : List Item) : TagsFit (Item.chunks items) := by
  intro c hc
  rw [Item.chunks_eq_map] at hc
  obtain ⟨item, -, rfl⟩ := List.mem_map.1 hc
  rw [Item.tag_chunk]
  exact Item.code_lt_limit _

/-- Unknown chunks in encoded elements, in any number and at any depth, change nothing of what is
read, as long as the numbers among the chunks can be read. -/
theorem decodeValues_inserted {es : List Value} {items : List Item} {chunks : List Chunk}
    (hitems : Item.ofItems es = .ok items)
    (h : Relation.ReflTransGen (Inserted .items) (Item.chunks items) chunks)
    (hfit : LengthsFit chunks) :
    ∃ bytes values, encodeValues (.list es) = .ok bytes ∧ decodeValues bytes = .ok values ∧
      decodeValues (header ++ encodeList chunks) = .ok values := by
  obtain ⟨hlengths, htags, hsame⟩ := agree_of_inserted h hfit
  have htagsFit := tagsFit_chunks items
  have hread : frames (encodeList (Item.chunks items)) = .ok (Item.chunks items) :=
    frames_encodeList hlengths.1 (hlengths.fits htagsFit)
  have hreadLonger : frames (encodeList chunks) = .ok chunks :=
    frames_encodeList hfit.1 (hfit.fits (htags.2 htagsFit))
  have hvalues : valuesOf chunks = valuesOf (Item.chunks items) := by
    rw [← toValues_itemsOf, ← toValues_itemsOf, hsame]
  have hencode : encode items = header ++ encodeList (Item.chunks items) := rfl
  refine ⟨encode items, valuesOf (Item.chunks items), encodeValues_of_ofItems hitems, ?_, ?_⟩
  · rw [hencode, decodeValues_header, hread]
    rfl
  · rw [decodeValues_header, hreadLonger, ← hvalues]
    rfl

/-- A row with a page break in it. -/
def brokenRow : List Value :=
  [.map [(.text "type", .text "row"),
    (.text "children", .list [.map [(.text "type", .text "pagebreak")]])]]

/-- The chunks of such a row with an unknown chunk in front of it, among its fields, in front of the
page break inside it and in the page break. -/
def brokenRowExtended : List Chunk :=
  [⟨0, [255]⟩, ⟨Kind.row.code, encodeList [⟨200, [0]⟩, ⟨Field.children.tag, encodeList
    [⟨9, [1, 2]⟩, ⟨Kind.pageBreak.code, encodeList [⟨13, [7]⟩]⟩]⟩]⟩]

theorem brokenRow_inserted :
    Relation.ReflTransGen (Inserted .items) (Item.chunks [.row [.pageBreak] none])
      brokenRowExtended := by
  have hitem : ∀ tag, 8 < tag ∨ tag = 0 → Place.items.Unknown tag := by
    rintro tag htag kind rfl
    cases kind <;> simp [Kind.code] at htag
  have hfield : ∀ kind tag, 12 < tag → (Place.fields kind).Unknown tag := by
    rintro kind tag htag field rfl
    cases field <;> simp [Field.tag] at htag
  have hinside : Inserted .items [⟨Kind.pageBreak.code, []⟩]
      [⟨9, [1, 2]⟩, ⟨Kind.pageBreak.code, []⟩] :=
    .chunk [] _ (hitem 9 (by decide)) (by decide)
  have hbreak : Inserted .items [⟨9, [1, 2]⟩, ⟨Kind.pageBreak.code, []⟩]
      [⟨9, [1, 2]⟩, ⟨Kind.pageBreak.code, encodeList [⟨13, [7]⟩]⟩] :=
    .fields [_] [] (.inr ⟨rfl, rfl⟩) (.chunk [] [] (hfield _ 13 (by decide)) (by decide))
  have hinRow : ∀ {chunks longer : List Chunk}, Inserted .items chunks longer →
      Inserted .items [⟨Kind.row.code, encodeList [⟨Field.children.tag, encodeList chunks⟩]⟩]
        [⟨Kind.row.code, encodeList [⟨Field.children.tag, encodeList longer⟩]⟩] :=
    fun h => @Inserted.fields .row _ _ _ [] [] (.inl rfl) (.inner [] [] rfl h)
  have hfirst : ∀ fields, Inserted (.fields .row) fields (⟨200, [0]⟩ :: fields) :=
    fun fields => .chunk [] fields (hfield _ 200 (by decide)) (by decide)
  have hamongFields : ∀ fields, Inserted .items [⟨Kind.row.code, encodeList fields⟩]
      [⟨Kind.row.code, encodeList (⟨200, [0]⟩ :: fields)⟩] :=
    fun fields => .fields [] [] (.inl rfl) (hfirst fields)
  exact (((Relation.ReflTransGen.single (hinRow hinside)).tail (hinRow hbreak)).tail
    (hamongFields _)).tail (.chunk [] [_] (hitem 0 (by decide)) (by decide))

theorem brokenRowExtended_lengthsFit : LengthsFit brokenRowExtended := by
  refine ⟨by decide, fun c hc => ?_⟩
  simp only [brokenRowExtended, List.mem_cons, List.not_mem_nil, or_false] at hc
  rcases hc with rfl | rfl
  · decide
  · cbv

theorem decodeValues_inserted_row :
    Item.ofItems brokenRow = .ok [.row [.pageBreak] none] ∧
      Relation.ReflTransGen (Inserted .items) (Item.chunks [.row [.pageBreak] none])
        brokenRowExtended ∧ LengthsFit brokenRowExtended ∧
      ∃ bytes values, encodeValues (.list brokenRow) = .ok bytes ∧
        decodeValues bytes = .ok values ∧
        decodeValues (header ++ encodeList brokenRowExtended) = .ok values :=
  ⟨rfl, brokenRow_inserted, brokenRowExtended_lengthsFit,
    decodeValues_inserted rfl brokenRow_inserted brokenRowExtended_lengthsFit⟩

/-- A chunk whose tag takes too many groups cannot be passed over, unknown as it is. -/
theorem decodeValues_unreadable_tag :
    Place.items.Unknown Varint.limit ∧ LengthsFit [⟨Varint.limit, []⟩] ∧
      Item.ofItems [] = .ok [] ∧ encodeValues (.list []) = .ok (header ++ encodeList []) ∧
      decodeValues (header ++ encodeList []) = .ok [] ∧
      decodeValues (header ++ encodeList [⟨Varint.limit, []⟩]) = .error (.number .tooLong) := by
  have hunknown : Place.items.Unknown Varint.limit := by
    rintro kind hkind
    exact Nat.lt_irrefl _ (hkind ▸ Item.code_lt_limit kind)
  have hfit : LengthsFit [⟨Varint.limit, []⟩] := by
    refine ⟨by decide, fun c hc => ?_⟩
    rw [List.mem_singleton.1 hc]
    decide
  have hempty : frames (encodeList []) = .ok [] := frames_encodeList (by decide) nofun
  have hrefused : frames (encodeList [⟨Varint.limit, []⟩]) = .error .tooLong :=
    frames_encodeList_of_not_fits
      (.inr ⟨_, List.mem_cons_self, fun hfits => Nat.lt_irrefl _ hfits.1⟩)
  refine ⟨hunknown, hfit, rfl, rfl, ?_, ?_⟩
  · rw [decodeValues_header, hempty]
    rfl
  · rw [decodeValues_header, hrefused]
    rfl

end Receipt.Codec
