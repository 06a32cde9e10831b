import Receipt.Value.Literal

/-!
# Words of values

Only a value that counts as empty is written as an empty word, `Value.plain_ne_empty`, and every
value that counts as empty can be written, `Value.fits_of_not_truthy`.
-/
namespace Receipt

namespace Double

theorem layout_ne_empty (n : Nat) (k : Int) : layout n k ≠ "" := by
  unfold layout exponentText
  simp only
  split
  · split
    · simp
    · split <;> simp
  · split <;> simp

theorem text_ne_empty (d : Double) : d.text ≠ "" := by
  cases d with
  | nan => simp [text]
  | infinite negative => cases negative <;> simp [text]
  | finite negative m e =>
      rw [text, Ne, String.append_eq_empty_iff, not_and]
      intro _
      split
      · simp
      · exact layout_ne_empty _ _

end Double

/-- Only a value that counts as empty is an empty word. -/
theorem Value.plain_ne_empty {v : Value} (h : v.truthy = true) : v.plain ≠ "" := by
  cases v with
  | null => cases h
  | missing => cases h
  | bool b => cases b <;> simp [plain, literal, boolLiteral]
  | int n => cases n <;> simp [plain, literal, toString, Int.repr]
  | double d => exact d.text_ne_empty
  | text s => simpa [truthy, plain] using h
  | unresolved s => simpa [truthy, plain] using h
  | date d => simp [plain, Time.Date.text]
  | moment m => simp [plain, Time.Moment.text]
  | list items => simp [plain, literal]
  | tuple items =>
      simp only [plain, literal]
      split <;> simp
  | map members => simp [plain, literal]

theorem Value.fits_of_not_truthy {v : Value} (h : v.truthy = false) : v.fits = true := by
  cases v with
  | int n =>
      obtain rfl : n = 0 := by simpa [truthy] using h
      decide
  | list items | tuple items =>
      obtain rfl : items = [] := by simpa [truthy] using h
      rfl
  | map members =>
      obtain rfl : members = [] := by simpa [truthy] using h
      rfl
  | _ => rfl

end Receipt
