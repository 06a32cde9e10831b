/-!
# Splitting text at a character

`splitOn` cuts at every separator and keeps empty pieces, so joining the pieces gives the text
back; `cutAt` cuts at the first separator only.
-/
namespace Receipt.Text

/-- The pieces between separators; never empty, as the empty text is one empty piece. -/
def splitOn (sep : Char) : List Char → List (List Char)
  | [] => [[]]
  | c :: cs =>
    if c = sep then [] :: splitOn sep cs
    else match splitOn sep cs with
      | [] => [[c]]
      | piece :: more => (c :: piece) :: more

/-- The text before the first separator, and the text after it if there is one. -/
def cutAt (sep : Char) : List Char → List Char × Option (List Char)
  | [] => ([], none)
  | c :: cs =>
    if c = sep then ([], some cs)
    else ((c :: (cutAt sep cs).1), (cutAt sep cs).2)

theorem splitOn_ne_nil (sep : Char) (cs : List Char) : splitOn sep cs ≠ [] := by
  cases cs with
  | nil => simp [splitOn]
  | cons c cs =>
      simp only [splitOn]
      split
      · simp
      · split <;> simp

theorem splitOn_append (sep : Char) (xs ys : List Char) :
    splitOn sep (xs ++ sep :: ys) = splitOn sep xs ++ splitOn sep ys := by
  induction xs with
  | nil => simp [splitOn]
  | cons c cs ih =>
      simp only [List.cons_append, splitOn, ih]
      split
      · simp
      · cases h : splitOn sep cs with
        | nil => exact absurd h (splitOn_ne_nil sep cs)
        | cons piece more => simp

theorem splitOn_eq_singleton {sep : Char} {cs : List Char} (h : sep ∉ cs) :
    splitOn sep cs = [cs] := by
  induction cs with
  | nil => rfl
  | cons c cs ih =>
      simp only [List.mem_cons, not_or] at h
      simp [splitOn, ih h.2, Ne.symm h.1]

theorem cutAt_eq_none {sep : Char} {cs : List Char} (h : sep ∉ cs) : cutAt sep cs = (cs, none) := by
  induction cs with
  | nil => rfl
  | cons c cs ih =>
      simp only [List.mem_cons, not_or] at h
      simp [cutAt, ih h.2, Ne.symm h.1]

theorem cutAt_append {sep : Char} {xs : List Char} (ys : List Char) (h : sep ∉ xs) :
    cutAt sep (xs ++ sep :: ys) = (xs, some ys) := by
  induction xs with
  | nil => simp [cutAt]
  | cons c cs ih =>
      simp only [List.mem_cons, not_or] at h
      simp [cutAt, ih h.2, Ne.symm h.1]

end Receipt.Text
