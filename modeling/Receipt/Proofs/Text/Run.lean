import Receipt.Text.Blank
import Receipt.Text.Word

/-!
# Runs of characters

A run of one class that is followed by a character outside the class is read as a whole:
`takeWhile_append_stop` and `dropWhile_append_stop`. No blank is a word character, so a run of blanks
ends where a word starts: `isBlank_of_isWord`.
-/
namespace Receipt.Text

section runs
variable {p : Char → Bool} {xs ys : List Char}

/-- A text does not go on with a character of the class. -/
def Stops (p : Char → Bool) (cs : List Char) : Prop := ∀ c ∈ cs.head?, p c = false

theorem stops_cons {c : Char} (h : p c = false) (cs : List Char) : Stops p (c :: cs) := by
  intro d hd
  cases hd
  exact h

theorem takeWhile_append_stop (hxs : ∀ x ∈ xs, p x = true) (hys : Stops p ys) :
    (xs ++ ys).takeWhile p = xs := by
  have hnone : ys.takeWhile p = [] := by
    cases ys with
    | nil => rfl
    | cons y ys => exact List.takeWhile_cons_of_neg (by simp [hys y rfl])
  rw [List.takeWhile_append_of_pos hxs, hnone, List.append_nil]

theorem not_mem_of_forall (hxs : ∀ x ∈ xs, p x = true) {c : Char} (hc : p c = false) :
    c ∉ xs := by
  intro hmem
  rw [hxs c hmem] at hc
  cases hc

theorem dropWhile_append_stop (hxs : ∀ x ∈ xs, p x = true) (hys : Stops p ys) :
    (xs ++ ys).dropWhile p = ys := by
  have hall : ys.dropWhile p = ys := by
    cases ys with
    | nil => rfl
    | cons y ys => exact List.dropWhile_cons_of_neg (by simp [hys y rfl])
  rw [List.dropWhile_append_of_pos hxs, hall]

theorem stops_dropWhile (p : Char → Bool) (cs : List Char) : Stops p (cs.dropWhile p) := by
  intro c hc
  have hhead := List.head?_dropWhile_not p cs
  rw [Option.mem_def.1 hc] at hhead
  simpa using hhead

/-- A text is a run of the class and what stops it. -/
theorem exists_run (p : Char → Bool) (cs : List Char) :
    ∃ rest, cs = cs.takeWhile p ++ rest ∧ Stops p rest :=
  ⟨cs.dropWhile p, List.takeWhile_append_dropWhile.symm, stops_dropWhile p cs⟩

end runs

/-- No code point lies in both tables. -/
def Ranges.Apart (a b : Ranges) : Prop := ∀ r ∈ a, ∀ s ∈ b, r.2 < s.1 ∨ s.2 < r.1

instance (a b : Ranges) : Decidable (Ranges.Apart a b) := by
  unfold Ranges.Apart
  infer_instance

theorem Ranges.Apart.has_eq_false {a b : Ranges} (h : a.Apart b) {n : Nat} (hb : b.has n = true) :
    a.has n = false := by
  rw [Ranges.has_iff] at hb
  obtain ⟨s, hs, hs1, hs2⟩ := hb
  rw [Bool.eq_false_iff, Ne, Ranges.has_iff]
  rintro ⟨r, hr, hr1, hr2⟩
  rcases h r hr s hs with hlt | hlt <;> omega

theorem blankTable_apart_letterTable : blankTable.Apart letterTable := by decide +kernel

theorem blankTable_apart_numeralTable : blankTable.Apart numeralTable := by decide +kernel

theorem isBlank_of_isWord_ascii :
    ∀ n < 128, isWord (Char.ofNat n) = true → isBlank (Char.ofNat n) = false := by
  decide

theorem isBlank_of_isWord {c : Char} (h : isWord c = true) : isBlank c = false := by
  by_cases hascii : c.toNat < 128
  · have hsmall := isBlank_of_isWord_ascii c.toNat hascii
    rw [Char.ofNat_toNat] at hsmall
    exact hsmall h
  · unfold isWord at h
    unfold isBlank
    rw [if_neg hascii] at h ⊢
    rw [Bool.or_eq_true] at h
    rcases h with hletter | hnumeral
    · exact blankTable_apart_letterTable.has_eq_false hletter
    · exact blankTable_apart_numeralTable.has_eq_false hnumeral

end Receipt.Text
