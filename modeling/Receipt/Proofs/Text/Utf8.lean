import Receipt.Text.Utf8

/-!
# What UTF-8 writes is read back

Every character is read from its bytes, whatever follows them, and so every text from its own.
-/
namespace Receipt.Text.Utf8

theorem toNat_byte {n : Nat} (h : n < 256) : (UInt8.ofNat n).toNat = n :=
  UInt8.toNat_ofNat_of_lt' h

/-- A byte within its bounds adds its six bits. -/
theorem follow_cons {code low high k n : Nat} {bounds : List (Nat × Nat)} {bs : List UInt8}
    (hk : k < 256) (hlow : low ≤ k) (hhigh : k ≤ high)
    (h : follow (code * 64 + (k - 0x80)) bounds bs = .ok n) :
    follow code ((low, high) :: bounds) (.ofNat k :: bs) = .ok n := by
  simp only [follow, toNat_byte hk, hlow, hhigh, and_self, if_true, h]

theorem follow_nil {code n : Nat} {bs : List UInt8} (h : code = n) :
    follow code [] bs = .ok n := by
  rw [h]
  rfl

theorem scan_of_lead {b bits n : Nat} {bs : List UInt8} {bounds : List (Nat × Nat)} (hb : b < 256)
    (hlead : lead? b = some (bits, bounds)) (h : follow bits bounds bs = .ok n) :
    scan (.ofNat b) bs = .ok (Char.ofNat n, bounds.length) := by
  simp only [scan, toNat_byte hb, hlead, h]

theorem scan_one {n : Nat} (h : n < 0x80) (rest : List UInt8) :
    scan (.ofNat n) rest = .ok (Char.ofNat n, 0) := by
  have hlead : lead? n = some (n, []) := if_pos h
  exact scan_of_lead (by omega) hlead (follow_nil rfl)

theorem scan_two {n : Nat} (h1 : 0x80 ≤ n) (h2 : n < 0x800) (rest : List UInt8) :
    scan (.ofNat (0xC0 + n / 64)) (.ofNat (0x80 + n % 64) :: rest) = .ok (Char.ofNat n, 1) := by
  have hlead : lead? (0xC0 + n / 64) = some (0xC0 + n / 64 - 0xC0, [(0x80, 0xBF)]) := by
    unfold lead?
    rw [if_neg (by omega), if_neg (by omega), if_pos (by omega)]
  refine scan_of_lead (by omega) hlead ?_
  refine follow_cons (by omega) (by omega) (by omega) ?_
  exact follow_nil (by omega)

/-- The bounds of the byte behind the first of three leave out what fewer bytes can write, and the
surrogates. -/
theorem lead?_three {b : Nat} (h1 : 0xE0 ≤ b) (h2 : b < 0xF0) :
    lead? b = some (b - 0xE0, [(if b = 0xE0 then 0xA0 else 0x80, if b = 0xED then 0x9F else 0xBF),
      (0x80, 0xBF)]) := by
  unfold lead?
  rw [if_neg (by omega), if_neg (by omega), if_neg (by omega)]
  by_cases h3 : b = 0xE0
  · subst h3
    rfl
  · by_cases h4 : b = 0xED
    · subst h4
      rfl
    · simp only [if_neg h3, if_neg h4, if_pos h2]

theorem scan_three {n : Nat} (h1 : 0x800 ≤ n) (h2 : n < 0x10000)
    (hvalid : n < 0xD800 ∨ 0xDFFF < n) (rest : List UInt8) :
    scan (.ofNat (0xE0 + n / 4096))
      (.ofNat (0x80 + n / 64 % 64) :: .ofNat (0x80 + n % 64) :: rest) = .ok (Char.ofNat n, 2) := by
  refine scan_of_lead (by omega) (lead?_three (by omega) (by omega)) ?_
  refine follow_cons (by omega) (by split <;> omega) (by split <;> omega) ?_
  refine follow_cons (by omega) (by omega) (by omega) ?_
  exact follow_nil (by omega)

theorem lead?_four {b : Nat} (h1 : 0xF0 ≤ b) (h2 : b ≤ 0xF4) :
    lead? b = some (b - 0xF0, [(if b = 0xF0 then 0x90 else 0x80, if b = 0xF4 then 0x8F else 0xBF),
      (0x80, 0xBF), (0x80, 0xBF)]) := by
  unfold lead?
  rw [if_neg (by omega), if_neg (by omega), if_neg (by omega), if_neg (by omega),
    if_neg (by omega), if_neg (by omega)]
  by_cases h3 : b = 0xF0
  · subst h3
    rfl
  · by_cases h4 : b = 0xF4
    · subst h4
      rfl
    · simp only [if_neg h3, if_neg h4, if_pos (show b < 0xF4 by omega)]

theorem scan_four {n : Nat} (h1 : 0x10000 ≤ n) (h2 : n < 0x110000) (rest : List UInt8) :
    scan (.ofNat (0xF0 + n / 262144)) (.ofNat (0x80 + n / 4096 % 64) ::
      .ofNat (0x80 + n / 64 % 64) :: .ofNat (0x80 + n % 64) :: rest) =
        .ok (Char.ofNat n, 3) := by
  refine scan_of_lead (by omega) (lead?_four (by omega) (by omega)) ?_
  refine follow_cons (by omega) (by split <;> omega) (by split <;> omega) ?_
  refine follow_cons (by omega) (by omega) (by omega) ?_
  refine follow_cons (by omega) (by omega) (by omega) ?_
  exact follow_nil (by omega)

/-- The first byte of a character says how many more are its own. -/
theorem scan_encodeChar (c : Char) :
    ∃ b bs, encodeChar c = b :: bs ∧ ∀ rest, scan b (bs ++ rest) = .ok (c, bs.length) := by
  have hvalid : c.toNat < 0xD800 ∨ 0xDFFF < c.toNat ∧ c.toNat < 0x110000 := c.valid
  have hc := Char.ofNat_toNat c
  unfold encodeChar
  generalize c.toNat = n at hvalid hc
  subst hc
  dsimp only
  by_cases h1 : n < 0x80
  · rw [if_pos h1]
    exact ⟨_, _, rfl, scan_one h1⟩
  · rw [if_neg h1]
    by_cases h2 : n < 0x800
    · rw [if_pos h2]
      exact ⟨_, _, rfl, scan_two (by omega) h2⟩
    · rw [if_neg h2]
      by_cases h3 : n < 0x10000
      · rw [if_pos h3]
        exact ⟨_, _, rfl, scan_three (by omega) h3 (by omega)⟩
      · rw [if_neg h3]
        exact ⟨_, _, rfl, scan_four (by omega) (by omega)⟩

/-- ASCII is written with one byte for each character. -/
theorem encode_of_ascii {cs : List Char} (h : ∀ c ∈ cs, c.toNat < 0x80) :
    encode cs = cs.map fun c => .ofNat c.toNat := by
  induction cs with
  | nil => rfl
  | cons c cs ih =>
      have hc : encodeChar c = [.ofNat c.toNat] := if_pos (h c List.mem_cons_self)
      have htail := ih fun d hd => h d (List.mem_cons_of_mem _ hd)
      rw [encode] at htail
      rw [encode, List.flatMap_cons, hc, htail]
      rfl

theorem decodeLossy_encode (cs : List Char) : decodeLossy (encode cs) = cs := by
  induction cs with
  | nil => rw [encode, List.flatMap_nil, decodeLossy]
  | cons c cs ih =>
      obtain ⟨b, bs, hb, hscan⟩ := scan_encodeChar c
      have hencode : encode (c :: cs) = b :: (bs ++ encode cs) := by
        rw [encode, List.flatMap_cons, hb, List.cons_append]
        rfl
      rw [hencode, decodeLossy, hscan]
      simp only [List.drop_left, ih]

theorem decodeLossy_ofString (s : String) : String.ofList (decodeLossy (ofString s)) = s := by
  rw [ofString, decodeLossy_encode, String.ofList_toList]

end Receipt.Text.Utf8
