import Receipt.Codec.Chunk
import Receipt.Proofs.Codec.Varint

/-!
# Chunks are read back

A chunk whose tag and length can be read is read back from its bytes, `read_encode`; one where a
number takes too many groups is refused, `read_encode_of_not_fits`.

`readCount` reads so many chunks and does not look into them. It reads back a list of elements,
`readCount_encode`, and looks at nothing behind the chunks, `readCount_front`. Fields are read like
elements as long as there are enough of them, `readFields_eq_readCount`, so they are read back too,
`fields_encodeList`.
-/
namespace Receipt.Codec.Chunk

/-- The tag and the length of the body can be read back. -/
def Fits (c : Chunk) : Prop := c.tag < Varint.limit ∧ c.body.length < Varint.limit

theorem read_encode {c : Chunk} (h : c.Fits) (rest : List UInt8) :
    read (c.encode ++ rest) = .ok (c, rest) := by
  obtain ⟨htag, hlength⟩ := h
  rw [encode, List.append_assoc, read, Varint.read_encode htag]
  dsimp only
  rw [List.append_assoc, Varint.read_encode hlength]
  simp only [List.take_left, List.drop_left]

theorem read_encode_of_not_fits {c : Chunk} (h : ¬ c.Fits) (rest : List UInt8) :
    read (c.encode ++ rest) = .error .tooLong := by
  rw [encode, List.append_assoc, read]
  by_cases htag : c.tag < Varint.limit
  · have hlength : Varint.limit ≤ c.body.length := Nat.not_lt.1 fun hlength => h ⟨htag, hlength⟩
    rw [Varint.read_encode htag]
    dsimp only
    rw [List.append_assoc, Varint.read_encode_of_le hlength]
  · rw [Varint.read_encode_of_le (Nat.not_lt.1 htag)]

theorem readFields_succ {count : Nat} {bytes : List UInt8} (h : bytes ≠ []) :
    readFields (count + 1) bytes =
      (read bytes).bind fun r => (readFields count r.2).map (r.1 :: ·) := by
  rw [readFields]
  · rfl
  · exact h

/-- Reads exactly so many chunks, and gives the bytes behind them. -/
def readCount : (count : Nat) → List UInt8 → Except Varint.Error (List Chunk × List UInt8)
  | 0, bytes => .ok ([], bytes)
  | count + 1, bytes => do
    let (c, rest) ← read bytes
    let (more, rest) ← readCount count rest
    return (c :: more, rest)

theorem readCount_succ {count : Nat} {bytes : List UInt8} :
    readCount (count + 1) bytes = (read bytes).bind fun r =>
      (readCount count r.2).map fun s => (r.1 :: s.1, s.2) := by
  rw [readCount]
  rfl

theorem readCount_encode {chunks : List Chunk} (h : ∀ c ∈ chunks, c.Fits) (rest : List UInt8) :
    readCount chunks.length (chunks.flatMap encode ++ rest) = .ok (chunks, rest) := by
  induction chunks with
  | nil => rfl
  | cons c chunks ih =>
      have hmore := ih fun d hd => h d (List.mem_cons_of_mem _ hd)
      rw [List.flatMap_cons, List.append_assoc, List.length_cons, readCount,
        read_encode (h c List.mem_cons_self)]
      change (readCount _ _ >>= fun r => _) = _
      rw [hmore]
      rfl

/-- Reading gets as far as the first number that takes too many groups. -/
theorem readCount_encode_of_not_fits {chunks : List Chunk} (h : ∃ c ∈ chunks, ¬ c.Fits)
    (rest : List UInt8) :
    readCount chunks.length (chunks.flatMap encode ++ rest) = .error .tooLong := by
  induction chunks with
  | nil => simp at h
  | cons c chunks ih =>
      rw [List.flatMap_cons, List.append_assoc, List.length_cons, readCount_succ]
      by_cases hc : c.Fits
      · have hmore : ∃ d ∈ chunks, ¬ d.Fits := by
          obtain ⟨d, hd, hfits⟩ := h
          rcases List.mem_cons.1 hd with rfl | hd
          · exact (hfits hc).elim
          · exact ⟨d, hd, hfits⟩
        rw [read_encode hc]
        simp only [Except.bind, ih hmore, Except.map]
      · rw [read_encode_of_not_fits hc]
        rfl

/-- Fields may end early, and that is all that sets reading them apart. -/
theorem readFields_eq_readCount {count : Nat} {bytes : List UInt8}
    (h : readCount count bytes ≠ .error .endOfData) :
    readFields count bytes = (readCount count bytes).map Prod.fst := by
  induction count generalizing bytes with
  | zero => rw [readFields, readCount]; rfl
  | succ count ih =>
      rw [readCount_succ] at h ⊢
      have hne : bytes ≠ [] := by
        rintro rfl
        exact h rfl
      rw [readFields_succ hne]
      cases hread : read bytes with
      | error e => rfl
      | ok r =>
          have hmore : readCount count r.2 ≠ .error .endOfData := by
            intro herror
            rw [hread] at h
            simp only [Except.bind, herror, Except.map, ne_eq, not_true_eq_false] at h
          simp only [Except.bind, ih hmore]
          cases readCount count r.2 <;> rfl

theorem fields_encodeList_append (chunks : List Chunk) (rest : List UInt8) :
    fields (encodeList chunks ++ rest) =
      (Varint.read (encodeList chunks ++ rest)).bind fun r => readFields r.1 r.2 := by
  have hne : encodeList chunks ++ rest ≠ [] := by
    rw [encodeList, List.append_assoc]
    exact List.append_ne_nil_of_left_ne_nil (Varint.encode_ne_nil _) _
  rw [fields]
  · rfl
  · exact hne

/-- A list of fields is read back, and what stands behind it is not looked at. -/
theorem fields_encodeList {chunks : List Chunk} (hcount : chunks.length < Varint.limit)
    (h : ∀ c ∈ chunks, c.Fits) (rest : List UInt8) :
    fields (encodeList chunks ++ rest) = .ok chunks := by
  have hread := readCount_encode h rest
  have hfields := readFields_eq_readCount (by rw [hread]; exact nofun)
  rw [fields_encodeList_append, encodeList, List.append_assoc, Varint.read_encode hcount]
  simp only [Except.bind, hfields, hread, Except.map]

theorem fields_encodeList_of_not_fits {chunks : List Chunk} (hcount : chunks.length < Varint.limit)
    (h : ∃ c ∈ chunks, ¬ c.Fits) (rest : List UInt8) :
    fields (encodeList chunks ++ rest) = .error .tooLong := by
  have hread := readCount_encode_of_not_fits h rest
  have hfields := readFields_eq_readCount (by rw [hread]; exact nofun)
  rw [fields_encodeList_append, encodeList, List.append_assoc, Varint.read_encode hcount]
  simp only [Except.bind, hfields, hread, Except.map]

theorem read_eq_ok {bytes : List UInt8} {tag length : Nat} {lengthBytes body : List UInt8}
    (htag : Varint.read bytes = .ok (tag, lengthBytes))
    (hlength : Varint.read lengthBytes = .ok (length, body)) :
    read bytes = .ok (⟨tag, body.take length⟩, body.drop length) := by
  rw [read, htag]
  dsimp only
  rw [hlength]

theorem of_read_eq_ok {bytes rest : List UInt8} {c : Chunk} (h : read bytes = .ok (c, rest)) :
    ∃ tag length lengthBytes body, Varint.read bytes = .ok (tag, lengthBytes) ∧
      Varint.read lengthBytes = .ok (length, body) ∧ c = ⟨tag, body.take length⟩ ∧
      rest = body.drop length := by
  unfold read at h
  split at h
  · simp at h
  · next tag lengthBytes htag =>
    split at h
    · simp at h
    · next length body hlength =>
      cases h
      exact ⟨tag, length, lengthBytes, body, htag, hlength, rfl, rfl⟩

/-- Nothing behind a chunk matters, if the chunk is as long as it says; that it is can be told from
bytes behind it. -/
theorem read_front {bytes rest : List UInt8} {c : Chunk} (h : read bytes = .ok (c, rest))
    (hrest : rest ≠ []) :
    ∃ used, bytes = used ++ rest ∧ ∀ other, read (used ++ other) = .ok (c, other) := by
  obtain ⟨tag, length, lengthBytes, body, htag, hlength, rfl, rfl⟩ := of_read_eq_ok h
  obtain ⟨opcode, rfl, hopcode⟩ := Varint.read_front htag
  obtain ⟨declared, rfl, hdeclared⟩ := Varint.read_front hlength
  have hlt : length < body.length := by
    rw [Ne, List.drop_eq_nil_iff] at hrest
    omega
  have htake : (body.take length).length = length := List.length_take_of_le (Nat.le_of_lt hlt)
  refine ⟨opcode ++ (declared ++ body.take length), ?_, fun other => ?_⟩
  · simp only [List.append_assoc, List.take_append_drop]
  · have hread := read_eq_ok (hopcode (declared ++ (body.take length ++ other)))
      (hdeclared (body.take length ++ other))
    rw [List.take_left' htake, List.drop_left' htake] at hread
    simpa only [List.append_assoc] using hread

theorem readCount_succ_eq_ok {count : Nat} {bytes rest : List UInt8} {chunks : List Chunk}
    (h : readCount (count + 1) bytes = .ok (chunks, rest)) :
    ∃ c more after, chunks = c :: more ∧ read bytes = .ok (c, after) ∧
      readCount count after = .ok (more, rest) := by
  rw [readCount_succ] at h
  cases hc : read bytes with
  | error e => simp [hc, Except.bind] at h
  | ok r =>
      obtain ⟨c, after⟩ := r
      simp only [hc, Except.bind] at h
      cases hm : readCount count after with
      | error e => simp [hm, Except.map] at h
      | ok s =>
          simp only [hm, Except.map, Except.ok.injEq, Prod.mk.injEq] at h
          exact ⟨c, s.1, after, h.1.symm, rfl, by rw [hm, ← h.2]⟩

theorem length_readCount {count : Nat} {bytes rest : List UInt8} {chunks : List Chunk}
    (h : readCount count bytes = .ok (chunks, rest)) : chunks.length = count := by
  induction count generalizing bytes chunks with
  | zero =>
      cases h
      rfl
  | succ count ih =>
      obtain ⟨c, more, after, rfl, -, hmore⟩ := readCount_succ_eq_ok h
      rw [List.length_cons, ih hmore]

/-- The bodies are shorter than the bytes that they are read from. -/
theorem readCount_body_lt {count : Nat} {bytes rest : List UInt8} {chunks : List Chunk}
    (h : readCount count bytes = .ok (chunks, rest)) :
    ∀ c ∈ chunks, c.body.length < bytes.length := by
  induction count generalizing bytes chunks with
  | zero =>
      cases h
      exact nofun
  | succ count ih =>
      obtain ⟨c, more, after, rfl, hc, hmore⟩ := readCount_succ_eq_ok h
      have hlength := read_length hc
      intro d hd
      rcases List.mem_cons.1 hd with rfl | hd
      · omega
      · have hd := ih hmore d hd
        omega

theorem readCount_nil {count : Nat} {chunks : List Chunk} {rest : List UInt8}
    (h : readCount count [] = .ok (chunks, rest)) : rest = [] := by
  cases count with
  | zero =>
      cases h
      rfl
  | succ count =>
      obtain ⟨c, more, after, -, hc, -⟩ := readCount_succ_eq_ok h
      have := read_length hc
      simp at this

theorem readCount_front {count : Nat} {bytes rest : List UInt8} {chunks : List Chunk}
    (h : readCount count bytes = .ok (chunks, rest)) (hrest : rest ≠ []) :
    ∃ used, bytes = used ++ rest ∧
      ∀ other, readCount count (used ++ other) = .ok (chunks, other) := by
  induction count generalizing bytes chunks with
  | zero =>
      cases h
      exact ⟨[], rfl, fun other => rfl⟩
  | succ count ih =>
      obtain ⟨c, more, after, rfl, hc, hmore⟩ := readCount_succ_eq_ok h
      have hafter : after ≠ [] := by
        rintro rfl
        exact hrest (readCount_nil hmore)
      obtain ⟨used, rfl, hused⟩ := read_front hc hafter
      obtain ⟨usedMore, rfl, husedMore⟩ := ih hmore
      refine ⟨used ++ usedMore, (List.append_assoc ..).symm, fun other => ?_⟩
      rw [readCount_succ, List.append_assoc, hused]
      simp only [Except.bind, husedMore, Except.map]

/-- Chunks are read one part after another. -/
theorem readCount_add (m n : Nat) (bytes : List UInt8) :
    readCount (m + n) bytes = (readCount m bytes).bind fun r =>
      (readCount n r.2).map fun s => (r.1 ++ s.1, s.2) := by
  induction m generalizing bytes with
  | zero =>
      simp only [Nat.zero_add, readCount, Except.bind, List.nil_append]
      cases readCount n bytes <;> rfl
  | succ m ih =>
      rw [Nat.succ_add, readCount_succ, readCount_succ]
      cases read bytes with
      | error e => rfl
      | ok r =>
          simp only [Except.bind, ih]
          cases readCount m r.2 with
          | error e => rfl
          | ok s =>
              simp only [Except.map]
              cases readCount n s.2 <;> rfl

/-- One chunk among those that are read: what stands before it, it, and what stands behind it. -/
theorem readCount_append_cons {bytes rest : List UInt8} {before after : List Chunk} {c : Chunk} :
    readCount (before.length + (after.length + 1)) bytes = .ok (before ++ c :: after, rest) ↔
      ∃ here there, readCount before.length bytes = .ok (before, here) ∧
        read here = .ok (c, there) ∧ readCount after.length there = .ok (after, rest) := by
  rw [readCount_add]
  constructor
  · intro h
    cases hb : readCount before.length bytes with
    | error e => simp [hb, Except.bind] at h
    | ok r =>
        obtain ⟨first, here⟩ := r
        simp only [hb, Except.bind] at h
        cases hs : readCount (after.length + 1) here with
        | error e => simp [hs, Except.map] at h
        | ok s =>
            obtain ⟨second, last⟩ := s
            simp only [hs, Except.map, Except.ok.injEq, Prod.mk.injEq] at h
            obtain ⟨happend, rfl⟩ := h
            obtain ⟨rfl, rfl⟩ := List.append_inj happend (length_readCount hb)
            obtain ⟨d, more, there, hcons, hread, hmore⟩ := readCount_succ_eq_ok hs
            obtain ⟨rfl, rfl⟩ := List.cons.inj hcons
            exact ⟨here, there, rfl, hread, hmore⟩
  · rintro ⟨here, there, hbefore, hread, hafter⟩
    rw [hbefore]
    simp only [Except.bind, readCount_succ, hread, hafter, Except.map]

theorem length_body_lt_encode (c : Chunk) : c.body.length + 2 ≤ c.encode.length := by
  have h1 := Varint.length_encode_pos c.tag
  have h2 := Varint.length_encode_pos c.body.length
  simp only [encode, List.length_append]
  omega

theorem length_le_flatMap (chunks : List Chunk) :
    chunks.length ≤ (chunks.flatMap encode).length := by
  induction chunks with
  | nil => exact Nat.le_refl _
  | cons c chunks ih =>
      have := length_body_lt_encode c
      simp only [List.flatMap_cons, List.length_append, List.length_cons]
      omega

/-- The body of a chunk is shorter than a list that holds it. -/
theorem length_body_lt_encodeList {chunks : List Chunk} {c : Chunk} (h : c ∈ chunks) :
    c.body.length < (encodeList chunks).length := by
  have hc := length_body_lt_encode c
  have hsub : c.encode.length ≤ (chunks.flatMap encode).length :=
    by
    rw [List.flatMap_def]
    exact (List.sublist_flatten_of_mem (List.mem_map_of_mem h)).length_le
  simp only [encodeList, List.length_append]
  omega

theorem length_lt_encodeList (chunks : List Chunk) :
    chunks.length < (encodeList chunks).length := by
  have h1 := Varint.length_encode_pos chunks.length
  have h2 := length_le_flatMap chunks
  simp only [encodeList, List.length_append]
  omega

end Receipt.Codec.Chunk
