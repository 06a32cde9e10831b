import Receipt.Proofs.Except
import Receipt.Proofs.Text.Utf8
import Receipt.Text.Base64

/-!
# What base64 writes is read back

The reader takes the digits of a group one by one, `read_digit`, so it gives back the bytes that
were written: `decode_encode`. The text is ASCII without white space, `of_mem_encode`, so its bytes
are the characters one by one. No text with a character other than the digits and the padding is
read: `of_mem_of_decodeText`.
-/
namespace Receipt.Text.Base64

theorem digit_ne_padding : ∀ k < 64, digit k ≠ '=' := by decide

/-- A digit goes into the group. -/
theorem read_digit {k : Nat} (hk : k < 64) (group : Group) (bytes : Nat) (rest : List Char) :
    read group 0 bytes (digit k :: rest) =
      (read (group.push k).1 0 (bytes + (group.push k).2.length) rest).map
        ((group.push k).2 ++ ·) := by
  rw [read]
  · rw [value?_digit k hk]
    rfl
  · exact digit_ne_padding k hk

theorem ofNat_eq {n : Nat} {b : UInt8} (h : n = b.toNat) : UInt8.ofNat n = b := by
  rw [h]
  exact UInt8.ofNat_toNat

theorem read_encode (bytes : List UInt8) (n : Nat) :
    read .empty 0 n (encode bytes) = .ok bytes := by
  induction bytes using encode.induct generalizing n with
  | case1 => rfl
  | case2 a =>
      have ha := a.toNat_lt
      have hfirst : UInt8.ofNat (a.toNat / 4 * 4 + a.toNat % 4 * 16 / 16) = a := ofNat_eq (by omega)
      rw [encode, read_digit (by omega), read_digit (by omega)]
      simp only [Group.push, hfirst]
      rfl
  | case3 a b =>
      have ha := a.toNat_lt
      have hb := b.toNat_lt
      have hfirst : UInt8.ofNat (a.toNat / 4 * 4 + (a.toNat % 4 * 16 + b.toNat / 16) / 16) = a :=
        ofNat_eq (by omega)
      have hsecond : UInt8.ofNat ((a.toNat % 4 * 16 + b.toNat / 16) % 16 * 16 +
          b.toNat % 16 * 4 / 4) = b := ofNat_eq (by omega)
      rw [encode, read_digit (by omega), read_digit (by omega), read_digit (by omega)]
      simp only [Group.push, hfirst, hsecond]
      rfl
  | case4 a b c rest ih =>
      have ha := a.toNat_lt
      have hb := b.toNat_lt
      have hc := c.toNat_lt
      have hfirst : UInt8.ofNat (a.toNat / 4 * 4 + (a.toNat % 4 * 16 + b.toNat / 16) / 16) = a :=
        ofNat_eq (by omega)
      have hsecond : UInt8.ofNat ((a.toNat % 4 * 16 + b.toNat / 16) % 16 * 16 +
          (b.toNat % 16 * 4 + c.toNat / 64) / 4) = b := ofNat_eq (by omega)
      have hthird : UInt8.ofNat ((b.toNat % 16 * 4 + c.toNat / 64) % 4 * 64 + c.toNat % 64) = c :=
        ofNat_eq (by omega)
      rw [encode, read_digit (by omega), read_digit (by omega), read_digit (by omega),
        read_digit (by omega)]
      simp only [Group.push, hfirst, hsecond, hthird, ih]
      rfl

theorem of_mem_encode {bytes : List UInt8} {c : Char} (h : c ∈ encode bytes) :
    c = '=' ∨ ∃ k < 64, c = digit k := by
  induction bytes using encode.induct with
  | case1 => cases h
  | case2 a =>
      have ha := a.toNat_lt
      simp only [encode, List.mem_cons, List.not_mem_nil, or_false] at h
      rcases h with h | h | h | h
      · exact .inr ⟨_, by omega, h⟩
      · exact .inr ⟨_, by omega, h⟩
      · exact .inl h
      · exact .inl h
  | case3 a b =>
      have ha := a.toNat_lt
      have hb := b.toNat_lt
      simp only [encode, List.mem_cons, List.not_mem_nil, or_false] at h
      rcases h with h | h | h | h
      · exact .inr ⟨_, by omega, h⟩
      · exact .inr ⟨_, by omega, h⟩
      · exact .inr ⟨_, by omega, h⟩
      · exact .inl h
  | case4 a b c' rest ih =>
      have ha := a.toNat_lt
      have hb := b.toNat_lt
      have hc := c'.toNat_lt
      simp only [encode, List.mem_cons] at h
      rcases h with h | h | h | h | h
      · exact .inr ⟨_, by omega, h⟩
      · exact .inr ⟨_, by omega, h⟩
      · exact .inr ⟨_, by omega, h⟩
      · exact .inr ⟨_, by omega, h⟩
      · exact ih h

theorem ascii_digit : ∀ k < 64, (digit k).toNat < 0x80 := by decide

theorem ascii_of_mem_encode {bytes : List UInt8} {c : Char} (h : c ∈ encode bytes) :
    c.toNat < 0x80 := by
  rcases of_mem_encode h with rfl | ⟨k, hk, rfl⟩
  · decide
  · exact ascii_digit k hk

/-- The first character is that of the upper six bits of the first byte. -/
theorem head?_encode_cons (a : UInt8) (rest : List UInt8) :
    (encode (a :: rest)).head? = some (digit (a.toNat / 4)) := by
  cases rest with
  | nil => rfl
  | cons b rest => cases rest <;> rfl

theorem decode_encode (bytes : List UInt8) : decode (encode bytes) = .ok bytes := by
  have hhead : (encode bytes).head? ≠ some '=' := by
    cases bytes with
    | nil => nofun
    | cons a rest =>
        have ha := a.toNat_lt
        rw [head?_encode_cons, Ne, Option.some.injEq]
        exact digit_ne_padding _ (by omega)
  rw [decode, if_neg hhead]
  exact read_encode bytes 0

theorem decodeText_encode (bytes : List UInt8) :
    decodeText (String.ofList (encode bytes)) = .ok bytes := by
  have hascii : (encode bytes).all (·.toNat < 0x80) = true :=
    List.all_eq_true.2 fun c hc => decide_eq_true (ascii_of_mem_encode hc)
  rw [decodeText, String.toList_ofList, if_pos hascii]
  exact decode_encode bytes

/-- What is read has digits and padding only, whatever the group and what is still to come. -/
theorem of_mem_of_read {cs : List Char} {group : Group} {pads n : Nat} {bytes : List UInt8}
    (h : read group pads n cs = .ok bytes) : ∀ c ∈ cs, c = '=' ∨ (value? c).isSome := by
  induction cs generalizing group pads n bytes with
  | nil => nofun
  | cons c rest ih =>
      by_cases hpadding : c = '='
      · subst hpadding
        have hrest : ∀ c ∈ rest, c = '=' ∨ (value? c).isSome := by
          rw [read] at h
          split at h
          · split at h
            · split at h
              · next hempty =>
                rw [List.isEmpty_iff.1 hempty]
                nofun
              · cases h
            · exact ih h
          · exact ih h
        exact List.forall_mem_cons.2 ⟨.inl rfl, hrest⟩
      · rw [read] at h
        · split at h
          · cases h
          · next k hk =>
            split at h
            · cases h
            · obtain ⟨_, hread, -⟩ := map_eq_ok h
              have hc : (value? c).isSome := Option.isSome_of_eq_some hk
              exact List.forall_mem_cons.2 ⟨.inr hc, ih hread⟩
        · exact hpadding

theorem of_mem_of_decodeText {s : String} {bytes : List UInt8} (h : decodeText s = .ok bytes) :
    ∀ c ∈ s.toList, c = '=' ∨ (value? c).isSome := by
  unfold decodeText decode at h
  split at h
  · split at h
    · cases h
    · exact of_mem_of_read h
  · cases h

end Receipt.Text.Base64
