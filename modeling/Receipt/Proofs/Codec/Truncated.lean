import Receipt.Proofs.Codec.Outline

/-!
# Data that are cut off

What a reader reads does not depend on the bytes behind, so a reader that gets through data that
were cut off has read what it reads in all of them: `Varint.read_cut` for a number and
`Chunk.readCount_cut` for chunks with something behind them. The last chunk alone may be shorter
than it says. So a list of chunks that is cut off is read exactly if the cut is behind the length of
the last chunk, `frames_cut_iff`, and then all elements are read as before but the last:
`decodeValues_cut`.
-/
namespace Receipt.Codec

theorem Varint.read_cut {n m : Nat} {cut after tail rest : List UInt8} (hn : n < limit)
    (hread : read cut = .ok (m, after)) (hcut : encode n ++ rest = cut ++ tail) :
    m = n ∧ cut = encode n ++ after ∧ rest = after ++ tail := by
  obtain ⟨used, rfl, hused⟩ := read_front hread
  have hall : read (encode n ++ rest) = .ok (m, after ++ tail) := by
    rw [hcut, List.append_assoc]
    exact hused (after ++ tail)
  rw [read_encode hn] at hall
  cases hall
  refine ⟨rfl, ?_, rfl⟩
  rw [← List.append_assoc] at hcut
  exact (List.append_cancel_right hcut).symm

namespace Chunk

theorem readCount_cut {chunks found : List Chunk} {cut after tail rest : List UInt8}
    (hfits : ∀ c ∈ chunks, c.Fits) (hread : readCount chunks.length cut = .ok (found, after))
    (hafter : after ≠ []) (hcut : chunks.flatMap encode ++ rest = cut ++ tail) :
    found = chunks ∧ cut = chunks.flatMap encode ++ after ∧ rest = after ++ tail := by
  obtain ⟨used, rfl, hused⟩ := readCount_front hread hafter
  have hall : readCount chunks.length (chunks.flatMap encode ++ rest) =
      .ok (found, after ++ tail) := by
    rw [hcut, List.append_assoc]
    exact hused (after ++ tail)
  rw [readCount_encode hfits] at hall
  cases hall
  refine ⟨rfl, ?_, rfl⟩
  rw [← List.append_assoc] at hcut
  exact (List.append_cancel_right hcut).symm

/-- A chunk up to its body. -/
def encodeHead (c : Chunk) : List UInt8 := Varint.encode c.tag ++ Varint.encode c.body.length

/-- A list of chunks up to the body of the last. -/
def encodeUpTo (before : List Chunk) (last : Chunk) : List UInt8 :=
  Varint.encode (before.length + 1) ++ (before.flatMap encode ++ last.encodeHead)

theorem encode_eq (c : Chunk) : c.encode = c.encodeHead ++ c.body := by
  rw [encode, encodeHead, List.append_assoc]

theorem encodeList_append_singleton (before : List Chunk) (last : Chunk) :
    encodeList (before ++ [last]) = encodeUpTo before last ++ last.body := by
  rw [encodeList, encodeUpTo, List.flatMap_append, List.flatMap_singleton, encode_eq,
    List.length_append, List.length_singleton]
  simp only [List.append_assoc]

/-- A body that is cut off is read as far as it goes. -/
theorem read_encodeHead {c : Chunk} (hfits : c.Fits) {body : List UInt8}
    (hbody : body.length ≤ c.body.length) :
    read (c.encodeHead ++ body) = .ok (⟨c.tag, body⟩, []) := by
  have htag := Varint.read_encode hfits.1 (Varint.encode c.body.length ++ body)
  have hread := read_eq_ok htag (Varint.read_encode hfits.2 body)
  rwa [List.take_of_length_le hbody, List.drop_of_length_le hbody, ← List.append_assoc] at hread

/-- A chunk that is cut off is read only if its tag and its length are there. -/
theorem read_cut {c found : Chunk} {cut after tail : List UInt8} (hfits : c.Fits)
    (hread : read cut = .ok (found, after)) (hcut : c.encode = cut ++ tail) :
    ∃ body, cut = c.encodeHead ++ body ∧ c.body = body ++ tail ∧ found = ⟨c.tag, body⟩ := by
  obtain ⟨tag, length, lengthBytes, body, htag, hlength, rfl, -⟩ := of_read_eq_ok hread
  rw [encode] at hcut
  obtain ⟨rfl, rfl, hbehind⟩ := Varint.read_cut hfits.1 htag hcut
  obtain ⟨rfl, rfl, hbody⟩ := Varint.read_cut hfits.2 hlength hbehind
  have hle : body.length ≤ c.body.length := by
    rw [hbody, List.length_append]
    exact Nat.le_add_right _ _
  refine ⟨body, ?_, hbody, ?_⟩
  · rw [encodeHead, List.append_assoc]
  · rw [List.take_of_length_le hle]

/-- Of chunks that are cut off, all are read as before but the last. -/
theorem readCount_cut_last {before found : List Chunk} {last : Chunk} {cut rest tail : List UInt8}
    (hbefore : ∀ c ∈ before, c.Fits) (hlast : last.Fits)
    (hread : readCount (before.length + 1) cut = .ok (found, rest))
    (hcut : before.flatMap encode ++ last.encode = cut ++ tail) :
    ∃ body, cut = before.flatMap encode ++ (last.encodeHead ++ body) ∧ last.body = body ++ tail ∧
      found = before ++ [⟨last.tag, body⟩] := by
  have hlength := length_readCount hread
  rcases List.eq_nil_or_concat' found with rfl | ⟨first, c, rfl⟩
  · cases hlength
  · rw [List.length_append, List.length_singleton, Nat.add_right_cancel_iff] at hlength
    have hparts : readCount (first.length + (([] : List Chunk).length + 1)) cut =
        .ok (first ++ c :: [], rest) := by
      rw [hlength]
      exact hread
    obtain ⟨here, there, hfirst, hc, -⟩ := readCount_append_cons.1 hparts
    have hhere : here ≠ [] := by
      rintro rfl
      have hshorter := read_length hc
      rw [List.length_nil] at hshorter
      omega
    rw [hlength] at hfirst
    obtain ⟨rfl, rfl, hbehind⟩ := readCount_cut hbefore hfirst hhere hcut
    obtain ⟨body, rfl, hbody, rfl⟩ := read_cut hlast hc hbehind
    exact ⟨body, rfl, hbody, rfl⟩

end Chunk

open Chunk

/-- A list of chunks that is cut off is read exactly if nothing but an end of the last body is
missing, and then the last body is what is left of it. -/
theorem frames_cut_iff {chunks found : List Chunk} {cut tail : List UInt8}
    (hcount : chunks.length < Varint.limit) (hfits : ∀ c ∈ chunks, c.Fits)
    (hcut : encodeList chunks = cut ++ tail) (htail : tail ≠ []) :
    frames cut = .ok found ↔ ∃ before last body, chunks = before ++ [last] ∧
      cut = encodeUpTo before last ++ body ∧ last.body = body ++ tail ∧
      found = before ++ [⟨last.tag, body⟩] := by
  constructor
  · intro h
    obtain ⟨start, rest, hread, hfound⟩ := frames_eq_ok.1 h
    rw [encodeList] at hcut
    obtain ⟨hlength, rfl, hstart⟩ := Varint.read_cut hcount hread hcut
    rw [hlength] at hfound
    rcases List.eq_nil_or_concat' chunks with rfl | ⟨before, last, rfl⟩
    · rw [List.flatMap_nil, List.nil_eq_append_iff] at hstart
      exact (htail hstart.2).elim
    · rw [List.flatMap_append, List.flatMap_singleton] at hstart
      rw [List.length_append, List.length_singleton] at hfound ⊢
      obtain ⟨body, rfl, hbody, rfl⟩ :=
        readCount_cut_last (fun c hc => hfits c (List.mem_append_left _ hc))
          (hfits last (List.mem_append_right _ List.mem_cons_self)) hfound hstart
      refine ⟨before, last, body, rfl, ?_, hbody, rfl⟩
      simp only [encodeUpTo, List.append_assoc]
  · rintro ⟨before, last, body, rfl, rfl, hbody, rfl⟩
    have hlast : last.Fits := hfits last (List.mem_append_right _ List.mem_cons_self)
    have hle : body.length ≤ last.body.length := by
      rw [hbody, List.length_append]
      exact Nat.le_add_right _ _
    have hbefore := readCount_encode (fun c hc => hfits c (List.mem_append_left [last] hc))
      (last.encodeHead ++ body)
    rw [List.length_append, List.length_singleton] at hcount
    refine frames_eq_ok.2 ⟨before.flatMap Chunk.encode ++ (last.encodeHead ++ body), [], ?_, ?_⟩
    · rw [encodeUpTo, List.append_assoc, List.append_assoc, Varint.read_encode hcount,
        List.length_append, List.length_singleton]
    · rw [List.length_append]
      exact readCount_append_cons.2 ⟨_, [], hbefore, read_encodeHead hlast hle, rfl⟩

namespace Item

theorem chunks_append_singleton (before : List Item) (last : Item) :
    chunks (before ++ [last]) = chunks before ++ [last.chunk] := by
  rw [chunks_eq_map, chunks_eq_map, List.map_append, List.map_singleton]

theorem chunks_eq_append_singleton {items : List Item} {first : List Chunk} {c : Chunk} :
    chunks items = first ++ [c] ↔
      ∃ before last, items = before ++ [last] ∧ chunks before = first ∧ last.chunk = c := by
  constructor
  · intro h
    rcases List.eq_nil_or_concat' items with rfl | ⟨before, last, rfl⟩
    · exact (List.append_ne_nil_of_right_ne_nil first (List.cons_ne_nil c []) h.symm).elim
    · rw [chunks_append_singleton] at h
      obtain ⟨hfirst, hc⟩ := List.append_inj' h rfl
      exact ⟨before, last, rfl, hfirst, List.singleton_inj.1 hc⟩
  · rintro ⟨before, last, rfl, rfl, rfl⟩
    exact chunks_append_singleton before last

end Item

theorem encode_append_singleton (before : List Item) (last : Item) :
    encode (before ++ [last]) =
      header ++ encodeUpTo (Item.chunks before) last.chunk ++ last.chunk.body := by
  rw [List.append_assoc, ← encodeList_append_singleton, ← Item.chunks_append_singleton]
  rfl

section Cut

variable {items : List Item} {cut tail : List UInt8} {values : List Value}

/-- What is read of encoded items that are cut off. -/
theorem decodeValues_cut_iff (hcount : items.length < Varint.limit)
    (hfits : ∀ i ∈ items, i.chunk.body.length < Varint.limit)
    (hcut : encode items = cut ++ tail) (htail : tail ≠ []) :
    decodeValues cut = .ok values ↔ ∃ before last body, items = before ++ [last] ∧
      cut = header ++ (encodeUpTo (Item.chunks before) last.chunk ++ body) ∧
      last.chunk.body = body ++ tail ∧
      values = valuesOf (Item.chunks before) ++ valuesOf [⟨last.chunk.tag, body⟩] := by
  have hencode : encode items = header ++ encodeList (Item.chunks items) := rfl
  have hcountChunks : (Item.chunks items).length < Varint.limit := by
    rwa [Item.chunks_eq_map, List.length_map]
  have hframes : ∀ {rest found}, encodeList (Item.chunks items) = rest ++ tail →
      (frames rest = .ok found ↔ _) := fun hrest =>
    frames_cut_iff hcountChunks (Item.fits_of_mem_chunks hfits) hrest htail
  rw [hencode] at hcut
  constructor
  · intro h
    obtain ⟨rest, found, rfl, hfound, rfl⟩ := of_decodeValues_eq_ok h
    rw [List.append_assoc, List.append_cancel_left_eq] at hcut
    obtain ⟨first, c, body, hchunks, rfl, hbody, rfl⟩ := (hframes hcut).1 hfound
    obtain ⟨before, last, rfl, rfl, rfl⟩ := Item.chunks_eq_append_singleton.1 hchunks
    exact ⟨before, last, body, rfl, rfl, hbody, valuesOf_append _ _⟩
  · rintro ⟨before, last, body, rfl, rfl, hbody, rfl⟩
    rw [List.append_assoc, List.append_cancel_left_eq] at hcut
    have hfound := (hframes hcut).2
      ⟨_, _, body, Item.chunks_append_singleton before last, rfl, hbody, rfl⟩
    rw [decodeValues_header, hfound, ← valuesOf_append]
    rfl

/-- Something is read exactly if the cut is behind the length of the last item. -/
theorem exists_decodeValues_cut_iff (hcount : items.length < Varint.limit)
    (hfits : ∀ i ∈ items, i.chunk.body.length < Varint.limit)
    (hcut : encode items = cut ++ tail) (htail : tail ≠ []) :
    (∃ values, decodeValues cut = .ok values) ↔ ∃ before last, items = before ++ [last] ∧
      header ++ encodeUpTo (Item.chunks before) last.chunk <+: cut := by
  constructor
  · rintro ⟨values, hvalues⟩
    obtain ⟨before, last, body, hlast, rfl, -⟩ :=
      (decodeValues_cut_iff hcount hfits hcut htail).1 hvalues
    refine ⟨before, last, hlast, body, ?_⟩
    rw [List.append_assoc]
  · rintro ⟨before, last, rfl, body, rfl⟩
    have hbody : last.chunk.body = body ++ tail := by
      rwa [encode_append_singleton, List.append_assoc _ body, List.append_cancel_left_eq] at hcut
    exact ⟨_, (decodeValues_cut_iff hcount hfits hcut htail).2
      ⟨before, last, body, rfl, List.append_assoc .., hbody, rfl⟩⟩

theorem length_valuesOf {chunks : List Chunk}
    (h : ∀ c ∈ chunks, ∃ item, decodeBody c.tag c.body = some item) :
    (valuesOf chunks).length = chunks.length := by
  induction chunks with
  | nil => rfl
  | cons c chunks ih =>
      obtain ⟨item, hitem⟩ := h c List.mem_cons_self
      have hrest := ih fun d hd => h d (List.mem_cons_of_mem _ hd)
      rw [valuesOf] at hrest ⊢
      rw [List.flatMap_cons, hitem, List.length_append, hrest, List.length_cons, Nat.add_comm]
      rfl

theorem length_valuesOf_chunks (h : ∀ i ∈ items, ∃ other, i.restored? = some other) :
    (valuesOf (Item.chunks items)).length = items.length := by
  rw [length_valuesOf, Item.chunks_eq_map, List.length_map]
  intro c hc
  rw [Item.chunks_eq_map] at hc
  obtain ⟨i, hi, rfl⟩ := List.mem_map.1 hc
  exact h i hi

theorem length_valuesOf_singleton_le (c : Chunk) : (valuesOf [c]).length ≤ 1 := by
  rw [valuesOf, List.flatMap_singleton]
  cases decodeBody c.tag c.body with
  | none => exact Nat.zero_le _
  | some item => exact Nat.le_refl _

/-- If each item is read when nothing is cut off, all but the last are read as then. -/
theorem take_decodeValues_cut (hcount : items.length < Varint.limit)
    (hfits : ∀ i ∈ items, i.chunk.body.length < Varint.limit)
    (hread : ∀ i ∈ items, ∃ other, i.restored? = some other)
    (hcut : encode items = cut ++ tail) (htail : tail ≠ []) (h : decodeValues cut = .ok values) :
    1 ≤ items.length ∧ values.length ≤ items.length ∧
      values.take (items.length - 1) =
        (valuesOf (Item.chunks items)).take (items.length - 1) := by
  obtain ⟨before, last, body, rfl, -, -, rfl⟩ :=
    (decodeValues_cut_iff hcount hfits hcut htail).1 h
  have hbefore : (valuesOf (Item.chunks before)).length = before.length :=
    length_valuesOf_chunks fun i hi => hread i (List.mem_append_left _ hi)
  have hlast := length_valuesOf_singleton_le ⟨last.chunk.tag, body⟩
  rw [List.length_append, List.length_singleton, Nat.add_sub_cancel,
    Item.chunks_append_singleton, valuesOf_append, List.take_left' hbefore,
    List.take_left' hbefore, List.length_append]
  exact ⟨by omega, by omega, rfl⟩

end Cut

/-- Of encoded elements that are cut off nothing is read, or all but the last are read as before.
Something is read exactly if the cut is behind the length of the last element. -/
theorem decodeValues_cut {es : List Value} {items : List Item}
    (hitems : Item.ofItems es = .ok items) (hfits : Fits es) (hflex : ∀ i ∈ items, i.FlexFits)
    (hnumbers : ∀ e ∈ es, ∀ v, ConditionsIn e v → Json.IsBinary64 v) :
    ∃ bytes full, encodeValues (.list es) = .ok bytes ∧ decodeValues bytes = .ok full ∧
      full.length = es.length ∧ ∀ cut, cut <+: bytes → cut ≠ bytes →
        (∀ values, decodeValues cut = .ok values → 1 ≤ es.length ∧ values.length ≤ es.length ∧
          values.take (es.length - 1) = full.take (es.length - 1)) ∧
        ((∃ values, decodeValues cut = .ok values) ↔ ∃ before last, items = before ++ [last] ∧
          header ++ encodeUpTo (Item.chunks before) last.chunk <+: cut) := by
  obtain ⟨hcount, hlengths⟩ := (fits_iff hitems).1 hfits
  have hlength : es.length = items.length := (Item.ofItems_eq_ok_iff.1 hitems).length_eq
  have hread : ∀ i ∈ items, ∃ other, i.restored? = some other := by
    intro i hi
    obtain ⟨e, he, hvalue⟩ := Item.exists_of_mem_items hitems hi
    obtain ⟨hconditions, -⟩ := Item.every_conditionsRead hvalue (hnumbers e he)
    obtain ⟨other, hother, -⟩ := Item.exists_restored? (hflex i hi) hconditions (hlengths i hi)
    exact ⟨other, hother⟩
  refine ⟨encode items, valuesOf (Item.chunks items), encodeValues_of_ofItems hitems,
    decodeValues_encode_eq hcount hlengths, ?_, ?_⟩
  · rw [length_valuesOf_chunks hread, hlength]
  · rintro cut ⟨tail, hcut⟩ hne
    have htail : tail ≠ [] := by
      rintro rfl
      rw [List.append_nil] at hcut
      exact hne hcut
    rw [hlength]
    constructor
    · intro values hvalues
      exact take_decodeValues_cut hcount hlengths hread hcut.symm htail hvalues
    · exact exists_decodeValues_cut_iff hcount hlengths hcut.symm htail

/-- The row with the text is read as before wherever the data are cut off. -/
theorem decodeValues_cut_nested :
    Item.ofItems nestedElements = .ok nestedItems ∧ Fits nestedElements ∧
      (∀ i ∈ nestedItems, i.FlexFits) ∧
      (∀ e ∈ nestedElements, ∀ v, ConditionsIn e v → Json.IsBinary64 v) ∧
      ∃ bytes full, encodeValues (.list nestedElements) = .ok bytes ∧
        decodeValues bytes = .ok full ∧ full.length = 2 ∧
        ∀ cut, cut <+: bytes → cut ≠ bytes → ∀ values, decodeValues cut = .ok values →
          values.length ≤ 2 ∧ values.take 1 = full.take 1 := by
  have hflex : ∀ i ∈ nestedItems, i.FlexFits := by
    intro i hi
    obtain ⟨hfit, -⟩ := nestedItems_flexFits i hi
    exact hfit
  refine ⟨rfl, nestedElements_fits, hflex, nestedElements_isBinary64, ?_⟩
  obtain ⟨bytes, full, hbytes, hfull, hlength, hcut⟩ :=
    decodeValues_cut rfl nestedElements_fits hflex nestedElements_isBinary64
  refine ⟨bytes, full, hbytes, hfull, hlength, fun cut hprefix hne values hvalues => ?_⟩
  obtain ⟨-, hle, htake⟩ := (hcut cut hprefix hne).1 values hvalues
  exact ⟨hle, htake⟩

end Receipt.Codec
