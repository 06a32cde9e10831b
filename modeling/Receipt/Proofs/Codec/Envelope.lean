import Receipt.Proofs.Codec.Frames
import Receipt.Proofs.Codec.Objects
import Receipt.Proofs.Text.Base64

/-!
# Receipts as text are recognised and read

Recognising a text and reading it are separate, but both take it for base64 first: the letters that
recognising refuses at the start are not base64 anyway, `isEncoded_of_decodeText`. So the text of an
encoded receipt is recognised and read like its bytes, a text that can be read is recognised, and a
text that cannot be read is no base64 or has bytes that cannot be decoded:
`isEncoded_decodeElementsText`.
-/
namespace Receipt.Codec

theorem decodeText_toText (bytes : List UInt8) :
    Text.Base64.decodeText (toText bytes) = .ok bytes :=
  Text.Base64.decodeText_encode bytes

/-- Base64 text is recognised by its bytes alone. -/
theorem isEncoded_of_decodeText {s : String} {bytes : List UInt8}
    (h : Text.Base64.decodeText s = .ok bytes) :
    isEncoded s = (decide (3 ≤ bytes.length) && decide (bytes.take 2 = magic)) := by
  have hmem := Text.Base64.of_mem_of_decodeText h
  unfold isEncoded
  split
  · next rest heq =>
    rw [heq] at hmem
    rcases hmem '[' List.mem_cons_self with h | h <;> cases h
  · next rest heq =>
    rw [heq] at hmem
    rcases hmem '\x7b' List.mem_cons_self with h | h <;> cases h
  · rw [h]

theorem isEncoded_of_header {s : String} {rest : List UInt8}
    (h : Text.Base64.decodeText s = .ok (header ++ rest)) : isEncoded s = true := by
  obtain ⟨hlength, hmagic, -⟩ := exists_header_iff.1 ⟨rest, rfl⟩
  rw [isEncoded_of_decodeText h, decide_eq_true hlength, decide_eq_true hmagic]
  rfl

theorem exists_header_of_encodeValues {v : Value} {bytes : List UInt8}
    (h : encodeValues v = .ok bytes) : ∃ rest, bytes = header ++ rest := by
  obtain ⟨items, -, rfl⟩ := map_eq_ok h
  exact ⟨_, rfl⟩

theorem decodeElementsText_of_decodeText {s : String} {bytes : List UInt8}
    (h : Text.Base64.decodeText s = .ok bytes) : decodeElementsText s = decodeElements bytes := by
  rw [decodeElementsText, decodeText, h]
  rfl

theorem decodeElementsText_of_decodeText_error {s : String} {b : Text.Base64.Error}
    (h : Text.Base64.decodeText s = .error b) :
    decodeElementsText s = .error (.text (.base64 b)) := by
  rw [decodeElementsText, decodeText, h]
  rfl

theorem exists_header_of_decodeElements {bytes : List UInt8} {es : List Element}
    (h : decodeElements bytes = .ok es) : ∃ rest, bytes = header ++ rest := by
  rw [decodeElements] at h
  cases hvalues : decodeValues bytes with
  | error f =>
      rw [hvalues] at h
      cases h
  | ok vs =>
      obtain ⟨rest, -, hbytes, -⟩ := of_decodeValues_eq_ok hvalues
      exact ⟨rest, hbytes⟩

/-- Elements are missing only where the bytes cannot be decoded. -/
theorem decodeElements_eq_error {bytes : List UInt8} {e : ElementsError}
    (h : decodeElements bytes = .error e) :
    ∃ f, decodeValues bytes = .error f ∧ e = .text (.format f) := by
  rw [decodeElements_eq] at h
  rw [decodeValues]
  cases hdecode : decode bytes with
  | error f =>
      rw [hdecode] at h
      cases h
      exact ⟨f, rfl, rfl⟩
  | ok items =>
      rw [hdecode] at h
      cases h

/-- The text of an encoded receipt is recognised, and reading it is decoding the bytes. A text from
which elements are read is recognised, and reading fails only if the text is not base64 or its bytes
cannot be decoded. -/
theorem isEncoded_decodeElementsText :
    (∀ v bytes, encodeValues v = .ok bytes →
      isEncoded (toText bytes) = true ∧
        decodeElementsText (toText bytes) = decodeElements bytes) ∧
      ∀ s,
        (∀ es, decodeElementsText s = .ok es → isEncoded s = true) ∧
          ∀ e, decodeElementsText s = .error e →
            (∃ b, Text.Base64.decodeText s = .error b ∧ e = .text (.base64 b)) ∨
              ∃ bytes f, Text.Base64.decodeText s = .ok bytes ∧
                decodeValues bytes = .error f ∧ e = .text (.format f) := by
  constructor
  · intro v bytes h
    obtain ⟨rest, rfl⟩ := exists_header_of_encodeValues h
    exact ⟨isEncoded_of_header (decodeText_toText _),
      decodeElementsText_of_decodeText (decodeText_toText _)⟩
  · intro s
    cases hbytes : Text.Base64.decodeText s with
    | error b =>
        rw [decodeElementsText_of_decodeText_error hbytes]
        refine ⟨nofun, fun e he => ?_⟩
        cases he
        exact .inl ⟨b, rfl, rfl⟩
    | ok bytes =>
        rw [decodeElementsText_of_decodeText hbytes]
        constructor
        · intro es h
          obtain ⟨rest, rfl⟩ := exists_header_of_decodeElements h
          exact isEncoded_of_header hbytes
        · intro e h
          obtain ⟨f, hf, he⟩ := decodeElements_eq_error h
          exact .inr ⟨bytes, f, rfl, hf, he⟩

/-- The bytes of a page break. -/
def breakBytes : List UInt8 := header ++ [1, 4, 0]

theorem decodeElements_breakBytes :
    decodeElements breakBytes = .ok [.passthrough [(.text "type", .text "pagebreak")]] := by
  have hframes : frames [1, 4, 0] = .ok [⟨4, []⟩] := rfl
  have hbreak : decodeBody 4 [] = some .pageBreak := by
    rw [decodeBody]
    rfl
  have hdecode : decode breakBytes = (decodeList [1, 4, 0]).mapError .number := rfl
  rw [decodeElements_eq, hdecode, decodeList_eq, hframes]
  simp only [Except.map, Except.mapError, itemsOf, List.flatMap_cons, List.flatMap_nil, hbreak]
  rfl

theorem isEncoded_decodeElementsText_break :
    encodeValues (.list [.map [(.text "type", .text "pagebreak")]]) = .ok breakBytes ∧
      isEncoded (toText breakBytes) = true ∧
      decodeElementsText (toText breakBytes) =
        .ok [.passthrough [(.text "type", .text "pagebreak")]] ∧
      decodeElementsText "[]" = .error (.text (.base64 .otherCharacter)) ∧
      Text.Base64.decodeText "[]" = .error .otherCharacter := by
  have hencode : encodeValues (.list [.map [(.text "type", .text "pagebreak")]]) =
      .ok breakBytes := by
    cbv
  obtain ⟨-, hread⟩ := isEncoded_decodeElementsText.1 _ _ hencode
  rw [decodeElements_breakBytes] at hread
  have hrefused : decodeElementsText "[]" = .error (.text (.base64 .otherCharacter)) := rfl
  refine ⟨hencode, (isEncoded_decodeElementsText.2 _).1 _ hread, hread, hrefused, ?_⟩
  rcases (isEncoded_decodeElementsText.2 _).2 _ hrefused with ⟨b, hb, he⟩ | ⟨_, f, -, -, he⟩
  · cases he
    exact hb
  · cases he

end Receipt.Codec
