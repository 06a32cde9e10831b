import Receipt.Codec.Varint

/-!
# Tagged chunks

A chunk is a tag, a length and so many bytes. Elements and the fields of elements are chunks, and
both come in lists that start with a count.

The count of elements is met exactly; a list of fields may end early, with the data. The last chunk
of the data may be shorter than it says.
-/
namespace Receipt.Codec

structure Chunk where
  tag : Nat
  body : List UInt8
  deriving DecidableEq, Repr

namespace Chunk

def encode (c : Chunk) : List UInt8 :=
  Varint.encode c.tag ++ (Varint.encode c.body.length ++ c.body)

def encodeList (chunks : List Chunk) : List UInt8 :=
  Varint.encode chunks.length ++ chunks.flatMap encode

def read (bytes : List UInt8) : Except Varint.Error (Chunk × List UInt8) :=
  match Varint.read bytes with
  | .error e => .error e
  | .ok (tag, bytes) =>
    match Varint.read bytes with
    | .error e => .error e
    | .ok (length, bytes) => .ok (⟨tag, bytes.take length⟩, bytes.drop length)

theorem read_length {bytes rest : List UInt8} {c : Chunk} (h : read bytes = .ok (c, rest)) :
    c.body.length + rest.length + 2 ≤ bytes.length := by
  unfold read at h
  split at h
  · simp at h
  · next tag more htag =>
    split at h
    · simp at h
    · next length body hlength =>
      simp only [Except.ok.injEq, Prod.mk.injEq] at h
      obtain ⟨rfl, rfl⟩ := h
      have := Varint.read_length_lt htag
      have := Varint.read_length_lt hlength
      simp only [List.length_take, List.length_drop]
      omega

/-- Reads so many fields, or up to the end of the data. -/
def readFields : (count : Nat) → List UInt8 → Except Varint.Error (List Chunk)
  | 0, _ => .ok []
  | _ + 1, [] => .ok []
  | count + 1, bytes => do
    let (c, rest) ← read bytes
    let more ← readFields count rest
    return c :: more

/-- The fields of an element; no bytes at all are no fields. -/
def fields (bytes : List UInt8) : Except Varint.Error (List Chunk) :=
  match bytes with
  | [] => .ok []
  | bytes => do
    let (count, rest) ← Varint.read bytes
    readFields count rest

/-- The body of the last chunk with a tag. -/
def find? (tag : Nat) : List Chunk → Option (List UInt8)
  | [] => none
  | c :: rest =>
    match find? tag rest with
    | some body => some body
    | none => if c.tag = tag then some c.body else none

theorem mem_of_find? {tag : Nat} {chunks : List Chunk} {body : List UInt8}
    (h : find? tag chunks = some body) : ∃ c ∈ chunks, c.body = body := by
  induction chunks with
  | nil => simp [find?] at h
  | cons c rest ih =>
      unfold find? at h
      split at h
      · next later hlater =>
        simp only [Option.some.injEq] at h
        obtain ⟨d, hd, rfl⟩ := ih (hlater.trans (congrArg some h))
        exact ⟨d, List.mem_cons_of_mem _ hd, rfl⟩
      · split at h
        · exact ⟨c, List.mem_cons_self, Option.some.inj h⟩
        · simp at h

theorem readFields_body_lt {count : Nat} {bytes : List UInt8} {chunks : List Chunk}
    (h : readFields count bytes = .ok chunks) : ∀ c ∈ chunks, c.body.length < bytes.length := by
  induction count generalizing bytes chunks with
  | zero => simp_all [readFields]
  | succ count ih =>
      cases bytes with
      | nil => simp_all [readFields]
      | cons b bs =>
        unfold readFields at h
        cases hr : read (b :: bs) with
        | error e => simp [hr, bind, Except.bind] at h
        | ok r =>
          obtain ⟨c, rest⟩ := r
          cases hm : readFields count rest with
          | error e => simp [hr, hm, bind, Except.bind] at h
          | ok more =>
            simp [hr, hm, bind, Except.bind, pure, Except.pure] at h
            have length := read_length hr
            subst h
            intro d hd
            rcases List.mem_cons.1 hd with rfl | hd
            · omega
            · have := ih hm d hd
              omega

theorem find?_fields_lt {tag : Nat} {bytes body : List UInt8} {chunks : List Chunk}
    (h : fields bytes = .ok chunks) (hf : find? tag chunks = some body) :
    body.length < bytes.length := by
  obtain ⟨c, hc, rfl⟩ := mem_of_find? hf
  unfold fields at h
  split at h
  · simp only [Except.ok.injEq] at h
    subst h
    simp at hc
  · cases hr : Varint.read bytes with
    | error e => simp [hr, bind, Except.bind] at h
    | ok r =>
      obtain ⟨count, rest⟩ := r
      simp [hr, bind, Except.bind] at h
      have := readFields_body_lt h c hc
      have := Varint.read_length_lt hr
      omega

end Chunk
end Receipt.Codec
