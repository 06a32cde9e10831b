import Mathlib.Tactic.ByContra
import Receipt.Codec.Envelope
import Receipt.Proofs.Codec.Chunk

/-!
# What can make decoding fail

Decoding goes from chunk to chunk and puts together what their bodies give, `decodeList_eq`. So it
fails at the header or at a number between the chunks, and nowhere else; a body that cannot be read
gives nothing, and the other chunks give what they gave before: `decodeValues_frames`.
-/
namespace Receipt.Codec

theorem Item.toValues_eq_map (items : List Item) :
    Item.toValues items = items.map Item.toValue := by
  induction items with
  | nil => rfl
  | cons item items ih =>
      rw [Item.toValues, ih]
      rfl

/-- The items in the bodies of chunks; a body that cannot be read has none. -/
def itemsOf (chunks : List Chunk) : List Item :=
  chunks.flatMap fun c => (decodeBody c.tag c.body).toList

/-- The same as maps. -/
def valuesOf (chunks : List Chunk) : List Value :=
  chunks.flatMap fun c => ((decodeBody c.tag c.body).map Item.toValue).toList

theorem toValues_itemsOf (chunks : List Chunk) :
    Item.toValues (itemsOf chunks) = valuesOf chunks := by
  rw [Item.toValues_eq_map, itemsOf, valuesOf, List.map_flatMap]
  congr 1
  funext c
  cases decodeBody c.tag c.body <;> rfl

/-- The chunks of a list, found by their lengths alone. -/
def frames (bytes : List UInt8) : Except Varint.Error (List Chunk) :=
  (Varint.read bytes).bind fun r => (Chunk.readCount r.1 r.2).map Prod.fst

theorem frames_eq_ok {bytes : List UInt8} {chunks : List Chunk} :
    frames bytes = .ok chunks ↔ ∃ start rest, Varint.read bytes = .ok (chunks.length, start) ∧
      Chunk.readCount chunks.length start = .ok (chunks, rest) := by
  constructor
  · intro h
    cases hcount : Varint.read bytes with
    | error e => simp [frames, hcount, Except.bind] at h
    | ok r =>
        obtain ⟨count, start⟩ := r
        cases hread : Chunk.readCount count start with
        | error e => simp [frames, hcount, hread, Except.bind, Except.map] at h
        | ok s =>
            obtain ⟨found, rest⟩ := s
            simp only [frames, hcount, hread, Except.bind, Except.map, Except.ok.injEq] at h
            subst h
            have hlength := Chunk.length_readCount hread
            subst hlength
            exact ⟨start, rest, rfl, hread⟩
  · rintro ⟨start, rest, hcount, hread⟩
    simp only [frames, hcount, hread, Except.bind, Except.map]

theorem frames_encodeList {chunks : List Chunk} (hcount : chunks.length < Varint.limit)
    (h : ∀ c ∈ chunks, c.Fits) : frames (Chunk.encodeList chunks) = .ok chunks := by
  have hread := Chunk.readCount_encode h []
  rw [List.append_nil] at hread
  exact frames_eq_ok.2 ⟨_, _, Varint.read_encode hcount _, hread⟩

theorem frames_encodeList_of_not_fits {chunks : List Chunk}
    (h : Varint.limit ≤ chunks.length ∨ ∃ c ∈ chunks, ¬ c.Fits) :
    frames (Chunk.encodeList chunks) = .error .tooLong := by
  rw [frames, Chunk.encodeList]
  by_cases hcount : chunks.length < Varint.limit
  · have hread := Chunk.readCount_encode_of_not_fits (h.resolve_left (Nat.not_le.2 hcount)) []
    rw [List.append_nil] at hread
    rw [Varint.read_encode hcount]
    simp only [Except.bind, hread, Except.map]
  · rw [Varint.read_encode_of_le (Nat.not_lt.1 hcount)]
    rfl

theorem length_body_lt_of_frames {bytes : List UInt8} {chunks : List Chunk}
    (h : frames bytes = .ok chunks) : ∀ c ∈ chunks, c.body.length < bytes.length := by
  obtain ⟨start, rest, hcount, hread⟩ := frames_eq_ok.1 h
  have hstart := Varint.read_length_lt hcount
  intro c hc
  exact Nat.lt_trans (Chunk.readCount_body_lt hread c hc) hstart

theorem decodeItems_eq (count : Nat) (bytes : List UInt8) :
    decodeItems count bytes = (Chunk.readCount count bytes).map fun r => itemsOf r.1 := by
  induction count generalizing bytes with
  | zero =>
      rw [decodeItems]
      rfl
  | succ count ih =>
      rw [decodeItems, Chunk.readCount_succ]
      split
      · next e hread =>
        rw [hread]
        rfl
      · next c rest hread =>
        rw [hread, ih]
        simp only [Except.bind]
        cases Chunk.readCount count rest <;> rfl

theorem decodeList_eq (bytes : List UInt8) : decodeList bytes = (frames bytes).map itemsOf := by
  rw [decodeList, frames]
  split
  · next e hread =>
    rw [hread]
    rfl
  · next count rest hread =>
    rw [hread, decodeItems_eq]
    simp only [Except.bind]
    cases Chunk.readCount count rest <;> rfl

/-- The bytes before the list of elements. -/
def header : List UInt8 := magic ++ [version]

theorem decodeValues_header (bytes : List UInt8) :
    decodeValues (header ++ bytes) = ((frames bytes).map valuesOf).mapError .number := by
  have hdecode : decode (header ++ bytes) = (decodeList bytes).mapError .number := rfl
  rw [decodeValues, hdecode, decodeList_eq]
  cases frames bytes with
  | error e => rfl
  | ok chunks => exact congrArg Except.ok (toValues_itemsOf chunks)

/-- Data with another header are refused. -/
theorem decodeValues_of_no_header {bytes : List UInt8} (h : ∀ rest, bytes ≠ header ++ rest) :
    ∃ e, decodeValues bytes = .error e := by
  unfold decodeValues decode
  split
  · next m n v rest =>
    by_cases hmagic : [m, n] = magic
    · rw [if_neg (not_not_intro hmagic)]
      by_cases hversion : v = version
      · refine (h rest ?_).elim
        rw [header, ← hmagic, ← hversion]
        rfl
      · rw [if_pos hversion]
        exact ⟨_, rfl⟩
    · rw [if_pos hmagic]
      exact ⟨_, rfl⟩
  · exact ⟨_, rfl⟩

/-- Whether data start with the header. -/
theorem exists_header_iff {bytes : List UInt8} :
    (∃ rest, bytes = header ++ rest) ↔
      3 ≤ bytes.length ∧ bytes.take 2 = magic ∧ bytes[2]? = some version := by
  constructor
  · rintro ⟨rest, rfl⟩
    exact ⟨by simp [header, magic], rfl, rfl⟩
  · rintro ⟨hlength, hmagic, hversion⟩
    match bytes, hlength with
    | m :: n :: v :: rest, _ =>
      refine ⟨rest, ?_⟩
      have hmagic : [m, n] = magic := hmagic
      have hversion : v = version := Option.some.inj hversion
      rw [header, ← hmagic, hversion]
      rfl

/-- The data with another body in the chunk at an index, and the length of that body before it. -/
def replaceBody (bytes : List UInt8) (index : Nat) (body : List UInt8) :
    Except Varint.Error (List UInt8) := do
  let (_, start) ← Varint.read (bytes.drop header.length)
  let (_, here) ← Chunk.readCount index start
  let (_, lengthBytes) ← Varint.read here
  let (length, old) ← Varint.read lengthBytes
  return bytes.take (bytes.length - lengthBytes.length)
    ++ (Varint.encode body.length ++ body ++ old.drop length)

theorem replaceBody_eq_ok {bytes body start here lengthBytes old : List UInt8}
    {count index tag length : Nat} {before : List Chunk}
    (hcount : Varint.read (bytes.drop header.length) = .ok (count, start))
    (hbefore : Chunk.readCount index start = .ok (before, here))
    (htag : Varint.read here = .ok (tag, lengthBytes))
    (hlength : Varint.read lengthBytes = .ok (length, old)) :
    replaceBody bytes index body = .ok (bytes.take (bytes.length - lengthBytes.length)
      ++ (Varint.encode body.length ++ body ++ old.drop length)) := by
  simp only [replaceBody, hcount, hbefore, htag, hlength, bind, Except.bind, pure, Except.pure]

/-- Only the chunk itself changes, whatever its bytes and its old length were. -/
theorem frames_replaceBody {bytes body : List UInt8} {before after : List Chunk} {c : Chunk}
    (h : frames bytes = .ok (before ++ c :: after)) (hbody : body.length < Varint.limit) :
    ∃ other, replaceBody (header ++ bytes) before.length body = .ok (header ++ other) ∧
      frames other = .ok (before ++ ⟨c.tag, body⟩ :: after) := by
  obtain ⟨start, rest, hcount, hread⟩ := frames_eq_ok.1 h
  have hlength : (before ++ c :: after).length = before.length + (after.length + 1) := by
    rw [List.length_append, List.length_cons]
  rw [hlength] at hcount hread
  obtain ⟨here, there, hbefore, hc, hafter⟩ := Chunk.readCount_append_cons.1 hread
  obtain ⟨tag, length, lengthBytes, old, htag, hold, rfl, rfl⟩ := Chunk.of_read_eq_ok hc
  have hhere : here ≠ [] := by
    rintro rfl
    simp [Varint.read, Varint.readGroups] at htag
  -- What is read before the length does not depend on what follows.
  obtain ⟨countBytes, rfl, hcount'⟩ := Varint.read_front hcount
  obtain ⟨beforeBytes, rfl, hbefore'⟩ := Chunk.readCount_front hbefore hhere
  obtain ⟨tagBytes, rfl, htag'⟩ := Varint.read_front htag
  let new := Varint.encode body.length ++ body ++ old.drop length
  refine ⟨countBytes ++ (beforeBytes ++ (tagBytes ++ new)), ?_, ?_⟩
  · have htake : (header ++ (countBytes ++ (beforeBytes ++ (tagBytes ++ lengthBytes)))).take
        ((header ++ (countBytes ++ (beforeBytes ++ (tagBytes ++ lengthBytes)))).length
          - lengthBytes.length) = header ++ (countBytes ++ (beforeBytes ++ tagBytes)) := by
      simp only [← List.append_assoc]
      exact List.take_left' (by simp only [List.length_append]; omega)
    have hstart : Varint.read ((header ++ (countBytes ++ (beforeBytes ++
        (tagBytes ++ lengthBytes)))).drop header.length) = .ok (before.length + (after.length + 1),
          beforeBytes ++ (tagBytes ++ lengthBytes)) := by
      rw [List.drop_left, hcount]
    rw [replaceBody_eq_ok hstart hbefore htag hold, htake]
    simp only [List.append_assoc, new]
  · rw [frames_eq_ok]
    refine ⟨beforeBytes ++ (tagBytes ++ new), rest, ?_, ?_⟩
    · rw [hcount', List.length_append, List.length_cons]
    · rw [List.length_append, List.length_cons]
      refine Chunk.readCount_append_cons.2 ⟨_, _, hbefore' _, ?_, hafter⟩
      have hnew : new = Varint.encode body.length ++ (body ++ old.drop length) :=
        List.append_assoc ..
      rw [hnew, Chunk.read_eq_ok (htag' _) (Varint.read_encode hbody _), List.take_left,
        List.drop_left]

theorem valuesOf_append (first second : List Chunk) :
    valuesOf (first ++ second) = valuesOf first ++ valuesOf second :=
  List.flatMap_append

theorem valuesOf_append_cons (before after : List Chunk) (c : Chunk) :
    valuesOf (before ++ c :: after) = valuesOf before ++ valuesOf [c] ++ valuesOf after := by
  rw [← List.singleton_append, ← List.append_assoc, valuesOf_append, valuesOf_append]

theorem decodeValues_eq_error_iff (bytes : List UInt8) :
    (∃ e, decodeValues bytes = .error e) ↔
      bytes.length < 3 ∨ bytes.take 2 ≠ magic ∨ bytes[2]? ≠ some version ∨
        ∃ e, frames (bytes.drop 3) = .error e := by
  by_cases hheader : ∃ rest, bytes = header ++ rest
  · obtain ⟨hlength, hmagic, hversion⟩ := exists_header_iff.1 hheader
    obtain ⟨rest, rfl⟩ := hheader
    have hrest : (header ++ rest).drop 3 = rest := rfl
    rw [decodeValues_header, hrest]
    constructor
    · rintro ⟨e, he⟩
      refine .inr (.inr (.inr ?_))
      cases hf : frames rest with
      | error e => exact ⟨e, rfl⟩
      | ok chunks => simp [hf, Except.map, Except.mapError] at he
    · rintro (h | h | h | ⟨e, he⟩)
      · omega
      · exact (h hmagic).elim
      · exact (h hversion).elim
      · rw [he]
        exact ⟨_, rfl⟩
  · constructor
    · intro _
      by_contra hno
      simp only [not_or, Nat.not_lt, not_not] at hno
      exact hheader (exists_header_iff.2 ⟨hno.1, hno.2.1, hno.2.2.1⟩)
    · intro _
      exact decodeValues_of_no_header fun rest h => hheader ⟨rest, h⟩

theorem of_decodeValues_eq_ok {bytes : List UInt8} {values : List Value}
    (h : decodeValues bytes = .ok values) :
    ∃ rest chunks, bytes = header ++ rest ∧ frames rest = .ok chunks ∧
      values = valuesOf chunks := by
  by_cases hheader : ∃ rest, bytes = header ++ rest
  · obtain ⟨rest, rfl⟩ := hheader
    rw [decodeValues_header] at h
    cases hf : frames rest with
    | error e => simp [hf, Except.map, Except.mapError] at h
    | ok chunks =>
        simp only [hf, Except.map, Except.mapError, Except.ok.injEq] at h
        exact ⟨rest, chunks, rfl, hf, h.symm⟩
  · obtain ⟨e, he⟩ := decodeValues_of_no_header fun rest h => hheader ⟨rest, h⟩
    rw [he] at h
    cases h

/-- Data can be decoded unless the header is wrong or a number between the chunks cannot be read.
Every chunk then gives what its own body gives, and another body in its place, of any length that
can be declared, changes nothing else. -/
theorem decodeValues_frames (bytes : List UInt8) :
    ((∃ e, decodeValues bytes = .error e) ↔
      bytes.length < 3 ∨ bytes.take 2 ≠ magic ∨ bytes[2]? ≠ some version ∨
        ∃ e, frames (bytes.drop 3) = .error e) ∧
    ∀ values, decodeValues bytes = .ok values →
      ∃ chunks, frames (bytes.drop 3) = .ok chunks ∧ values = valuesOf chunks ∧
        ∀ before c after body, chunks = before ++ c :: after → body.length < Varint.limit →
          values = valuesOf before ++ valuesOf [c] ++ valuesOf after ∧
          ∃ other, replaceBody bytes before.length body = .ok other ∧
            decodeValues other =
              .ok (valuesOf before ++ valuesOf [⟨c.tag, body⟩] ++ valuesOf after) := by
  refine ⟨decodeValues_eq_error_iff bytes, fun values h => ?_⟩
  obtain ⟨rest, chunks, rfl, hframes, rfl⟩ := of_decodeValues_eq_ok h
  refine ⟨chunks, hframes, rfl, fun before c after body hchunks hbody => ?_⟩
  subst hchunks
  refine ⟨valuesOf_append_cons before after c, ?_⟩
  obtain ⟨other, hreplace, hother⟩ := frames_replaceBody hframes hbody
  refine ⟨header ++ other, hreplace, ?_⟩
  rw [decodeValues_header, hother, ← valuesOf_append_cons]
  rfl

/-- A text whose share of the width is cut off, and a page break. -/
def brokenText : List UInt8 := header ++ [2, 1, 3, 1, 4, 0, 4, 0]

theorem decodeValues_brokenText :
    decodeValues brokenText = .ok [.map [(.text "type", .text "pagebreak")]] := by
  have hframes : frames [2, 1, 3, 1, 4, 0, 4, 0] = .ok [⟨1, [1, 4, 0]⟩, ⟨4, []⟩] := rfl
  have htext : decodeBody 1 [1, 4, 0] = none := by
    rw [decodeBody]
    rfl
  have hbreak : decodeBody 4 [] = some .pageBreak := by
    rw [decodeBody]
    rfl
  rw [brokenText, decodeValues_header, hframes]
  simp only [Except.map, Except.mapError, valuesOf, List.flatMap_cons, List.flatMap_nil, htext,
    hbreak]
  rfl

/-- The page break stays where the body of the text is replaced. -/
theorem decodeValues_frames_broken :
    decodeValues brokenText = .ok [.map [(.text "type", .text "pagebreak")]] ∧
      ∃ other, replaceBody brokenText 0 [1, 255, 0] = .ok other ∧
        decodeValues other =
          .ok (valuesOf [] ++ valuesOf [⟨1, [1, 255, 0]⟩] ++ valuesOf [⟨4, []⟩]) := by
  obtain ⟨chunks, hframes, -, hreplace⟩ :=
    (decodeValues_frames brokenText).2 _ decodeValues_brokenText
  have hchunks : chunks = [] ++ ⟨1, [1, 4, 0]⟩ :: [⟨4, []⟩] := (Except.ok.inj hframes).symm
  obtain ⟨-, other⟩ := hreplace [] _ _ [1, 255, 0] hchunks (by decide)
  exact ⟨decodeValues_brokenText, other⟩

end Receipt.Codec
