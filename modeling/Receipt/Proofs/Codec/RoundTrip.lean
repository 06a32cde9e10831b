import Receipt.Proofs.Codec.Normal

/-!
# Encoded elements are read back in normal form

What is read from encoded elements is their normal form, at every depth, and the normal form is
encoded to the same bytes.
-/
namespace Receipt.Codec

/-- The number of elements and the lengths of their encoded bodies can be read back. The counts and
lengths inside an element are less than the length of its body. -/
def Fits (es : List Value) : Prop :=
  es.length < Varint.limit ∧
    ∀ e ∈ es, ∀ item, Item.ofValue e = .ok item → item.chunk.body.length < Varint.limit

theorem encodeValues_of_ofItems {es : List Value} {items : List Item}
    (h : Item.ofItems es = .ok items) : encodeValues (.list es) = .ok (encode items) := by
  rw [encodeValues, Item.listOf, h]
  rfl

theorem toItems_of_supported {es : List Value} (hs : ∀ e ∈ es, Supported e) (hf : Fits es) :
    ∃ items, Item.ofItems es = .ok items ∧ Item.toValues items = es.map normal ∧
      ∀ i ∈ items, (i.Every fun i => i.Readable ∧ i.Settled) ∧
        i.chunk.body.length < Varint.limit := by
  refine Item.ofItems_of_forall fun e he => ?_
  obtain ⟨item, hitem, hnormal, hevery⟩ := Item.ofValue_supported (hs e he)
  exact ⟨item, hitem, hnormal, hevery, hf.2 e he item hitem⟩

/-- Supported elements are read back in normal form, and have the bytes of their normal form. -/
theorem decodeValues_encodeValues {es : List Value} (hs : ∀ e ∈ es, Supported e) (hf : Fits es) :
    ∃ bytes, encodeValues (.list es) = .ok bytes ∧
      decodeValues bytes = .ok (es.map normal) ∧
      encodeValues (.list (es.map normal)) = .ok bytes := by
  obtain ⟨items, hitems, hnormal, hevery⟩ := toItems_of_supported hs hf
  have hcount : items.length < Varint.limit := by
    have hlength := congrArg List.length hnormal
    rw [Item.toValues_eq_map, List.length_map, List.length_map] at hlength
    rw [hlength]
    exact hf.1
  have hagain : Item.ofItems (es.map normal) = .ok items := by
    rw [← hnormal]
    exact Item.ofItems_toValues fun i hi =>
      Item.ofValue_toValue ((hevery i hi).1.mono fun _ h => h.2)
  refine ⟨encode items, encodeValues_of_ofItems hitems, ?_, encodeValues_of_ofItems hagain⟩
  rw [← hnormal]
  exact decodeValues_encode (fun i hi => (hevery i hi).1.mono fun _ h => h.1) hcount
    fun i hi => (hevery i hi).2

/-- A row with a text in it, and an iterator with conditions and a row of its own. -/
def nestedElements : List Value :=
  [.map [(.text "type", .text "row"),
      (.text "children", .list [.map [(.text "type", .text "text"), (.text "text", .int 7),
        (.text "style", .text "bold"), (.text "flex", .int 300)]])],
    .map [(.text "type", .text "iterator"), (.text "path", .text "lines"),
      (.text "rows", .list [.map [(.text "type", .text "pagebreak")]]),
      (.text "conditions", .list [.text "a", .null])]]

theorem nestedElements_supported : ∀ e ∈ nestedElements, Supported e := by
  have htext : Supported (.map [(.text "type", .text "text"), (.text "text", .int 7),
      (.text "style", .text "bold"), (.text "flex", .int 300)]) :=
    @Supported.intro _ .text rfl (by decide) (.inr ⟨300, by decide, rfl⟩) nofun nofun nofun
  have hbreak : Supported (.map [(.text "type", .text "pagebreak")]) :=
    @Supported.intro _ .pageBreak rfl nofun (.inl rfl) nofun nofun nofun
  intro e he
  rcases List.mem_cons.1 he with rfl | he
  · refine @Supported.intro _ .row rfl nofun (.inl rfl) nofun ?_ ?_
    · rintro name ⟨⟩ v ⟨⟩ -
      exact ⟨_, .inl rfl⟩
    · rintro name ⟨⟩ e he
      rw [List.mem_singleton.1 he]
      exact htext
  · rw [List.mem_singleton.1 he]
    refine @Supported.intro _ .iterator rfl (by decide) (.inl rfl) (fun _ => .inr ⟨rfl, rfl⟩) ?_ ?_
    · rintro name ⟨⟩ v ⟨⟩ -
      exact ⟨_, .inl rfl⟩
    · rintro name ⟨⟩ e he
      rw [List.mem_singleton.1 he]
      exact hbreak

theorem nestedElements_fits : Fits nestedElements := by
  refine ⟨by decide, fun e he item hitem => ?_⟩
  rcases List.mem_cons.1 he with rfl | he
  · cases hitem
    cbv
  · rw [List.mem_singleton.1 he] at hitem
    cases hitem
    cbv

theorem decodeValues_encodeValues_nested :
    (∀ e ∈ nestedElements, Supported e) ∧ Fits nestedElements ∧
      ∃ bytes, encodeValues (.list nestedElements) = .ok bytes ∧
        decodeValues bytes = .ok (nestedElements.map normal) ∧
        encodeValues (.list (nestedElements.map normal)) = .ok bytes :=
  ⟨nestedElements_supported, nestedElements_fits,
    decodeValues_encodeValues nestedElements_supported nestedElements_fits⟩

end Receipt.Codec
