import Receipt.Host.Standard
import Receipt.Proofs.Codec.Elements
import Receipt.Proofs.Codec.Shown
import Receipt.Proofs.Command.Untouched
import Receipt.Proofs.Compose.Composed
import Receipt.Proofs.Text.Base64

/-!
# A receipt that was built is decoded

What `build` writes as base64 is shown by `decode`: the normal forms of the elements that were
built, `decode_of_build`. The same is shown for the file with white space around its text, and for
the bytes of the receipt themselves, since base64 text of a receipt never begins with the letters
that its bytes begin with, `take_magic_ne`.
-/
namespace Receipt

namespace Codec

/-- A composed element that can be encoded is supported if the shares in it are in range. -/
theorem supported_of_isComposed {e : Element} (h : e.Every Element.IsComposed)
    (hflex : e.Every fun e => FlexInRange e.members) {item : Item}
    (hitem : Item.ofValue e.toValue = .ok item) : Supported e.toValue := by
  induction h generalizing item with
  | @intro e hcomposed _ ih =>
      obtain ⟨hrange, hinside⟩ := hflex
      obtain ⟨_, ⟨⟩, hkind, hinner, -, -⟩ := Item.of_ofValue_eq_ok hitem
      cases e with
      | text t align flex style =>
          have hkind := ofType?_of_hasType .text (Element.hasType_text t align flex style)
          exact .of_leaf hkind (Item.hasTexts_of_ofValue hkind hitem) hrange (by decide) rfl
      | barcode code barcodeType flex =>
          have hkind := ofType?_of_hasType .barcode (Element.hasType_barcode code barcodeType flex)
          exact .of_leaf hkind (Item.hasTexts_of_ofValue hkind hitem) hrange (by decide) rfl
      | row children flex =>
          have hrow := ofType?_of_hasType .row (Element.hasType_row children flex)
          rw [hrow, Option.some.injEq] at hkind
          rw [← hkind] at hinner
          have hchildren : Item.ofItems (Element.toValues children) = .ok item.inner := by
            rwa [← elementsUnder_children children flex]
          refine .intro hrow (Item.hasTexts_of_ofValue hrow hitem) hrange (fun h => Kind.noConfusion h) ?_ ?_
          · rintro _ ⟨⟩
            exact holdsList_children children flex
          · rintro _ ⟨⟩ v hv
            rw [elementsUnder_children, Element.toValues_eq_map] at hv
            obtain ⟨c, hc, rfl⟩ := List.mem_map.1 hv
            rw [Element.toValues_eq_map] at hchildren
            obtain ⟨i, -, hi⟩ := Item.exists_item_of_mem hchildren (List.mem_map_of_mem hc)
            exact ih c hc (hinside c hc) hi
      | passthrough payload =>
          rw [Element.members] at hkind
          have htype := hasType_of_ofType? hkind
          have htexts := Item.hasTexts_of_ofValue hkind hitem
          have hother : item.kind.name ∉ Row.types := fun hmem => hcomposed _ hmem htype
          generalize item.kind = kind at hkind hother htexts
          cases kind with
          | picture => exact .of_leaf hkind htexts hrange (by decide) rfl
          | pageBreak => exact .of_leaf hkind htexts hrange (by decide) rfl
          | horizontalLine => exact .of_leaf hkind htexts hrange (by decide) rfl
          | _ => exact (hother (by decide)).elim

/-- Encoded elements are read back in normal form, and can then be shown. -/
theorem decodeValues_of_supported {es : List Value} (hs : ∀ e ∈ es, Supported e) (hf : Fits es)
    {bytes : List UInt8} (h : encodeValues (.list es) = .ok bytes) :
    decodeValues bytes = .ok (es.map normal) ∧ Json.itemsFault? true (es.map normal) = none := by
  obtain ⟨items, hitems, hnormal, hevery⟩ := toItems_of_supported hs hf
  have hcount : items.length < Varint.limit := by
    rw [← (Item.ofItems_eq_ok_iff.1 hitems).length_eq]
    exact hf.1
  rw [encodeValues_of_ofItems hitems, Except.ok.injEq] at h
  rw [← h, ← hnormal]
  refine ⟨decodeValues_encode (fun i hi => (hevery i hi).1.mono fun _ h => h.1) hcount
    fun i hi => (hevery i hi).2, ?_⟩
  exact Item.itemsFault?_toValues fun i hi => Item.fault?_toValue (hevery i hi).1

/-- Composed elements that were encoded are decoded to their normal forms. -/
theorem decodeValues_of_composed {es : List Element} (h : ∀ e ∈ es, e.Every Element.IsComposed)
    (hflex : ∀ e ∈ es, e.Every fun e => FlexInRange e.members)
    (hf : Fits (Element.toValues es)) {bytes : List UInt8}
    (hencode : encodeElements es = .ok bytes) :
    decodeValues bytes = .ok ((Element.toValues es).map normal) ∧
      Json.itemsFault? true ((Element.toValues es).map normal) = none ∧ bytes.take 2 = magic := by
  obtain ⟨items, hitems, rfl⟩ := map_eq_ok hencode
  have hsupported : ∀ v ∈ Element.toValues es, Supported v := by
    intro v hv
    obtain ⟨item, -, hitem⟩ := Item.exists_item_of_mem hitems hv
    rw [Element.toValues_eq_map] at hv
    obtain ⟨e, he, rfl⟩ := List.mem_map.1 hv
    exact supported_of_isComposed (h e he) (hflex e he) hitem
  obtain ⟨hdecode, hshown⟩ := decodeValues_of_supported hsupported hf hencode
  exact ⟨hdecode, hshown, rfl⟩

end Codec

namespace Command
open Codec

/-- The bytes of the base64 text of a receipt. -/
def textBytes (bytes : List UInt8) : List UInt8 := Text.Utf8.ofString (toText bytes)

theorem not_space_digit : ∀ k < 64, isSpaceByte (.ofNat (Text.Base64.digit k).toNat) = false := by
  decide

theorem textBytes_eq (bytes : List UInt8) :
    textBytes bytes = (Text.Base64.encode bytes).map fun c => .ofNat c.toNat := by
  rw [textBytes, Text.Utf8.ofString, toText, String.toList_ofList]
  exact Text.Utf8.encode_of_ascii fun c => Text.Base64.ascii_of_mem_encode

theorem chars_textBytes (bytes : List UInt8) :
    (textBytes bytes).map (fun b => Char.ofNat b.toNat) = Text.Base64.encode bytes := by
  rw [textBytes_eq, List.map_map]
  refine (List.map_congr_left fun c hc => ?_).trans (List.map_id _)
  have hascii := Text.Base64.ascii_of_mem_encode hc
  have hbyte : (UInt8.ofNat c.toNat).toNat = c.toNat := Text.Utf8.toNat_byte (by omega)
  simp only [Function.comp_apply, hbyte, Char.ofNat_toNat, id_eq]

theorem not_space_textBytes {bytes : List UInt8} {b : UInt8} (h : b ∈ textBytes bytes) :
    isSpaceByte b = false := by
  rw [textBytes_eq] at h
  obtain ⟨c, hc, rfl⟩ := List.mem_map.1 h
  rcases Text.Base64.of_mem_encode hc with rfl | ⟨k, hk, rfl⟩
  · rfl
  · exact not_space_digit k hk

/-- White space in front of a text is dropped. -/
theorem dropWhile_space {before text : List UInt8} (hbefore : ∀ b ∈ before, isSpaceByte b = true)
    (htext : ∀ b ∈ text.head?, isSpaceByte b = false) :
    (before ++ text).dropWhile isSpaceByte = text := by
  rw [List.dropWhile_append_of_pos hbefore]
  cases text with
  | nil => rfl
  | cons b text =>
      have hb : ¬ isSpaceByte b = true := Bool.not_eq_true _ ▸ htext b rfl
      exact List.dropWhile_cons_of_neg hb

theorem trimBytes_append {before text behind : List UInt8}
    (hbefore : ∀ b ∈ before, isSpaceByte b = true) (htext : ∀ b ∈ text, isSpaceByte b = false)
    (hbehind : ∀ b ∈ behind, isSpaceByte b = true) (hne : text ≠ []) :
    trimBytes (before ++ text ++ behind) = text := by
  have hfront : (before ++ (text ++ behind)).dropWhile isSpaceByte = text ++ behind := by
    refine dropWhile_space hbefore fun b hb => htext b ?_
    rw [List.head?_append_of_ne_nil _ hne] at hb
    exact List.mem_of_mem_head? hb
  have hback : (behind.reverse ++ text.reverse).dropWhile isSpaceByte = text.reverse := by
    refine dropWhile_space (fun b hb => hbehind b (List.mem_reverse.1 hb)) fun b hb => htext b ?_
    exact List.mem_reverse.1 (List.mem_of_mem_head? hb)
  rw [trimBytes, List.append_assoc, hfront, List.reverse_append, hback, List.reverse_reverse]

/-- What a file can hold of an encoded receipt: its bytes, or its text with white space around. -/
inductive Shows (bytes : List UInt8) : List UInt8 → Prop
  | raw : Shows bytes bytes
  | text {before behind : List UInt8} (hbefore : ∀ b ∈ before, isSpaceByte b = true)
      (hbehind : ∀ b ∈ behind, isSpaceByte b = true) :
      Shows bytes (before ++ textBytes bytes ++ behind)

theorem shows_textBytes {bytes : List UInt8} : Shows bytes (textBytes bytes) := by
  have h := @Shows.text bytes [] [] nofun nofun
  rwa [List.nil_append, List.append_nil] at h

/-- The letters that the bytes of a receipt begin with make the text begin with another one. -/
theorem head?_textBytes {bytes : List UInt8} (hmagic : bytes.take 2 = magic) :
    (textBytes bytes).head? = some 0x55 := by
  obtain ⟨rest, rfl⟩ : ∃ rest, bytes = 0x52 :: rest := by
    cases bytes with
    | nil => cases hmagic
    | cons b rest => exact ⟨rest, congrArg (· :: rest) (List.cons.inj hmagic).1⟩
  rw [textBytes_eq, List.head?_map, Text.Base64.head?_encode_cons]
  rfl

/-- A text is not taken for the bytes of a receipt. -/
theorem take_magic_ne {bytes before behind : List UInt8} (hmagic : bytes.take 2 = magic)
    (hbefore : ∀ b ∈ before, isSpaceByte b = true) :
    (before ++ textBytes bytes ++ behind).take 2 ≠ magic := by
  intro h
  have hhead : (before ++ textBytes bytes ++ behind).head? = some 0x52 := by
    have htake := congrArg List.head? h
    rwa [List.head?_take, if_neg (by decide)] at htake
  cases before with
  | nil =>
      rw [List.nil_append, List.head?_append, head?_textBytes hmagic] at hhead
      cases hhead
  | cons b before =>
      cases hhead
      cases hbefore 0x52 List.mem_cons_self

theorem decodeFile_of_shows {bytes content : List UInt8} (hmagic : bytes.take 2 = magic)
    (h : Shows bytes content) :
    decodeFile content = (decodeValues bytes).mapError .format := by
  cases h with
  | raw => rw [decodeFile, if_pos hmagic]
  | text hbefore hbehind =>
      have hne : textBytes bytes ≠ [] := by
        intro hnil
        have hhead := head?_textBytes hmagic
        rw [hnil] at hhead
        cases hhead
      rw [decodeFile, if_neg (take_magic_ne hmagic hbefore),
        trimBytes_append hbefore (fun _ => not_space_textBytes) hbehind hne, chars_textBytes,
        Text.Base64.decode_encode]

variable [Host]

/-- Decoding a file shows values, and leaves the disk as it is. -/
def Decodes (p : Path) (vs : List Value) (d : Disk) : Prop :=
  ∃ text, prettyText vs = .ok text ∧ runRequest d (.decode p) = (⟨[text], [], .success⟩, d)

theorem decodes_of_decodeFile {d : Disk} {p : Path} {content : List UInt8} {vs : List Value}
    (hread : d.read p = .ok content) (hdecode : decodeFile content = .ok vs)
    (hshown : Json.itemsFault? true vs = none) : Decodes p vs d := by
  have htext : prettyText vs = .ok (Json.write .pretty (.list vs)) := by
    rw [prettyText, Json.render, Json.fault?, hshown]
  refine ⟨_, htext, ?_⟩
  simp only [runRequest, runDecode, hread, hdecode, htext]

theorem isComposed_of_buildFiles {d : Disk} {o : BuildOptions} {built : Built}
    (h : buildFiles d o = .ok built) : ∀ e ∈ built.elements, e.Every Element.IsComposed := by
  obtain ⟨settings, -, h⟩ := bind_eq_ok h
  obtain ⟨registry, hregistry, h⟩ := bind_eq_ok h
  obtain ⟨data, -, h⟩ := bind_eq_ok h
  obtain ⟨v, -, hregistry⟩ := bind_eq_ok hregistry
  have hread := mapError_eq_ok hregistry
  have hbuild := mapError_eq_ok h
  unfold build at hbuild
  split at hbuild
  · cases hbuild
    nofun
  · next layout found =>
    obtain ⟨es, hes, hbuild⟩ := bind_eq_ok hbuild
    cases hbuild
    let env : Compose.Env := ⟨settings, registry⟩
    have hdeclares : Compose.Env.Declares env.registry :=
      fun _ _ => Registry.every_isRead_of_get? hread
    exact Compose.Env.isComposed_of_compose hdeclares (hdeclares o.name layout found) hes

/-- A build that succeeds writes the text of what it built. -/
theorem written_of_runBuild {d : Disk} {o : BuildOptions} {p : Path} (hformat : o.format = .base64)
    (hout : o.out = some p) (h : (runBuild d o).1.ending.status = 0) :
    ∃ built bytes, buildFiles d o = .ok built ∧ encodeElements built.elements = .ok bytes ∧
      (runBuild d o).2.read p = .ok (textBytes bytes) := by
  have houtcome := outcome_runBuild d o
  generalize (runBuild d o).1 = report at h houtcome
  generalize (runBuild d o).2 = after at houtcome ⊢
  cases houtcome with
  | failed errors e =>
      rw [status_failed] at h
      cases h
  | printed _ _ hnone =>
      rw [hout] at hnone
      cases hnone
  | written hbuilt htext hsome _ hwrite =>
      rw [hout] at hsome
      cases hsome
      rw [hformat] at htext
      obtain ⟨bytes, hbytes, rfl⟩ := map_eq_ok (mapError_eq_ok htext)
      exact ⟨_, bytes, hbuilt, hbytes, Disk.read_write_self hwrite⟩

/-- If a build into a file succeeds, decoding the file shows the normal forms of the elements that
were built. So it does on any disk where the file holds their bytes, or their text with white space
around. -/
theorem decode_of_build {d : Disk} {o : BuildOptions} {out : Path} (hformat : o.format = .base64)
    (hout : o.out = some out) (h : (runRequest d (.build o)).1.ending.status = 0) :
    ∃ built bytes, buildFiles d o = .ok built ∧ encodeElements built.elements = .ok bytes ∧
      ((∀ e ∈ built.elements, e.Every fun e => FlexInRange e.members) →
        Fits (Element.toValues built.elements) →
        Decodes out ((Element.toValues built.elements).map normal) (runRequest d (.build o)).2 ∧
          ∀ d' content, d'.read out = .ok content → Shows bytes content →
            Decodes out ((Element.toValues built.elements).map normal) d') := by
  obtain ⟨built, bytes, hbuilt, hencode, hwritten⟩ := written_of_runBuild hformat hout h
  refine ⟨built, bytes, hbuilt, hencode, fun hflex hfits => ?_⟩
  obtain ⟨hdecode, hshown, hmagic⟩ :=
    decodeValues_of_composed (isComposed_of_buildFiles hbuilt) hflex hfits hencode
  have hdecodes : ∀ d' content, d'.read out = .ok content → Shows bytes content →
      Decodes out ((Element.toValues built.elements).map normal) d' := by
    intro d' content hcontent hshows
    refine decodes_of_decodeFile hcontent ?_ hshown
    rw [decodeFile_of_shows hmagic hshows, hdecode]
    rfl
  exact ⟨hdecodes _ _ hwritten shows_textBytes, hdecodes⟩

def shopText : String :=
  "\x7b\"S\": [\x7b\"type\": \"text\", \"text\": \"\x7b\x7bname\x7d\x7d\"\x7d, "
    ++ "\x7b\"type\": \"pagebreak\"\x7d]\x7d"

def milkText : String := "\x7b\"name\": \"Milk\"\x7d"

/-- A section of a text with a placeholder and a page break, and data for it. -/
def shopDisk : Disk :=
  [(["shop.json"], .file (Text.Utf8.ofString shopText)),
    (["milk.json"], .file (Text.Utf8.ofString milkText))]

def shopOptions : BuildOptions :=
  ⟨["shop.json"], ["milk.json"], "S", .base64, some (.ofText "milk.txt"), none, none⟩

def shopLayout : Layout :=
  ⟨[.text (.text "\x7b\x7bname\x7d\x7d") .null .null .null,
    .passthrough [(.text "type", .text "pagebreak")]], some "S"⟩

def milkData : Value := .map [(.text "name", .text "Milk")]

def milkReceipt : List Element :=
  [.text (.text "Milk") .null .null .null, .passthrough [(.text "type", .text "pagebreak")]]

theorem loadRegistry_shop : loadRegistry shopDisk ["shop.json"] = .ok [(.text "S", shopLayout)] := by
  have hname : Document.isJson ["shop.json"] = true := by decide +kernel
  have htext : Document.text (Text.Utf8.ofString shopText) = .ok shopText.toList := by
    decide +kernel
  have hjson : Json.read? shopText.toList = .ok (.map [(.text "S", .list
      [.map [(.text "type", .text "text"), (.text "text", .text "\x7b\x7bname\x7d\x7d")],
        .map [(.text "type", .text "pagebreak")]])]) := rfl
  rw [loadRegistry, load_json hname rfl htext hjson]
  rfl

theorem loadData_milk : loadData shopDisk ["milk.json"] = .ok milkData := by
  have hname : Document.isJson ["milk.json"] = true := by decide +kernel
  have htext : Document.text (Text.Utf8.ofString milkText) = .ok milkText.toList := by
    decide +kernel
  have hjson : Json.read? milkText.toList = .ok milkData := rfl
  rw [loadData, load_json hname rfl htext hjson]
  rfl

omit [Host] in
theorem compose_shop :
    letI := Host.standard 2025
    Compose.Env.compose ⟨.standard, [(.text "S", shopLayout)]⟩ shopLayout milkData [] =
      .ok milkReceipt := by
  let host := Host.standard 2025
  let env : Compose.Env := ⟨.standard, [(.text "S", shopLayout)]⟩
  have hexpander : env.settings.expander.expand (.text "\x7b\x7bname\x7d\x7d") milkData =
      .ok "Milk" := by
    decide +kernel
  have hexpand : env.expand (.text "\x7b\x7bname\x7d\x7d") milkData = .ok (.text "Milk") := by
    simp only [Compose.Env.expand, hexpander]
  have hwithin : env.layoutWithin 1 shopLayout milkData [] = .ok milkReceipt := by
    show env.within 1 [] 0 milkData shopLayout.rows = _
    rw [Compose.Env.within_succ]
    show Compose.gather _ shopLayout.rows = _
    rw [shopLayout, Compose.gather_cons, Compose.Env.rowWith_text, hexpand]
    rfl
  exact Compose.Env.compose_eq_of_layoutWithin hwithin (.ok milkReceipt)

omit [Host] in
theorem buildFiles_shop :
    letI := Host.standard 2025
    buildFiles shopDisk shopOptions = .ok ⟨milkReceipt, []⟩ := by
  let host := Host.standard 2025
  have hsettings : loadSettings shopDisk none none = .ok .standard := rfl
  have hbuild : build .standard [(.text "S", shopLayout)] "S" milkData = .ok ⟨milkReceipt, []⟩ := by
    show Except.bind (Compose.Env.compose _ shopLayout milkData []) _ = _
    rw [compose_shop]
    rfl
  simp only [buildFiles, shopOptions, hsettings, loadRegistry_shop, loadData_milk, bind,
    Except.bind, hbuild]
  rfl

omit [Host] in
theorem decode_of_build_shop :
    letI := Host.standard 2025
    shopOptions.format = .base64 ∧ shopOptions.out = some (.ofText "milk.txt") ∧
      (runRequest shopDisk (.build shopOptions)).1.ending.status = 0 ∧
      Decodes (.ofText "milk.txt")
        [.map [(.text "type", .text "text"), (.text "text", .text "Milk"),
            (.text "align", .text "left")],
          .map [(.text "type", .text "pagebreak")]]
        (runRequest shopDisk (.build shopOptions)).2 := by
  let host := Host.standard 2025
  have hstatus : (runRequest shopDisk (.build shopOptions)).1.ending.status = 0 := by
    show (runBuild shopDisk shopOptions).1.ending.status = 0
    rw [runBuild, buildFiles_shop]
    rfl
  obtain ⟨built, bytes, hbuilt, hencode, hshown⟩ := decode_of_build rfl rfl hstatus
  rw [buildFiles_shop] at hbuilt
  cases hbuilt
  refine ⟨rfl, rfl, hstatus, (hshown ?_ ?_).1⟩
  · intro e he
    rcases List.mem_cons.1 he with rfl | he
    · exact .intro (.inl rfl) (List.forall_mem_nil _)
    · cases List.mem_singleton.1 he
      exact .intro (.inl rfl) (List.forall_mem_nil _)
  · refine ⟨by decide, fun e he item hitem => ?_⟩
    rcases List.mem_cons.1 he with rfl | he
    · obtain rfl : item = .text "Milk" "left" none none := (Except.ok.inj hitem).symm
      cbv
    · rw [List.mem_singleton.1 he] at hitem
      obtain rfl : item = .pageBreak := (Except.ok.inj hitem).symm
      cbv

end Command
end Receipt
