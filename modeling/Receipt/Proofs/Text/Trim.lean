import Mathlib.Data.List.TakeWhile
import Receipt.Proofs.Text.Run

/-!
# Blanks cut off at the ends

`trimRight` cuts off the blanks behind a text and no more, `exists_trimRight_append`; what stands
before a character that is no blank stays, `trimRight_append_cons`. Blanks around a text make no
difference to `trim`, `trim_append_blanks` and `trim_blanks_append`, and a word is left as it is,
`trim_word`.
-/
namespace Receipt.Text

variable {cs blanks : List Char}

theorem trimRight_append_blanks (h : ∀ x ∈ blanks, isBlank x = true) (cs : List Char) :
    trimRight (cs ++ blanks) = trimRight cs := by
  unfold trimRight
  rw [List.reverse_append, List.dropWhile_append_of_pos fun x hx => h x (List.mem_reverse.1 hx)]

theorem trimRight_append_cons {c : Char} (hc : isBlank c = false) (xs ys : List Char) :
    trimRight (xs ++ c :: ys) = xs ++ c :: trimRight ys := by
  unfold trimRight
  rw [List.reverse_append, List.reverse_cons, List.append_assoc, List.dropWhile_append]
  cases h : ys.reverse.dropWhile isBlank with
  | nil => simp [hc]
  | cons y ys => simp

theorem trimRight_concat {c : Char} (hc : isBlank c = false) (xs : List Char) :
    trimRight (xs ++ [c]) = xs ++ [c] :=
  trimRight_append_cons hc xs []

/-- The blanks that are cut off, and nothing else. -/
theorem exists_trimRight_append (cs : List Char) :
    ∃ blanks, cs = trimRight cs ++ blanks ∧ (∀ x ∈ blanks, isBlank x = true) ∧
      ∀ c ∈ (trimRight cs).getLast?, isBlank c = false := by
  refine ⟨(cs.reverse.takeWhile isBlank).reverse, ?_, ?_, ?_⟩
  · rw [trimRight, ← List.reverse_append, List.takeWhile_append_dropWhile, List.reverse_reverse]
  · exact fun x hx => List.all_eq_true.1 List.all_takeWhile x (List.mem_reverse.1 hx)
  · intro c hc
    rw [trimRight, List.getLast?_reverse] at hc
    exact stops_dropWhile isBlank cs.reverse c hc

theorem trim_blanks_append (h : ∀ x ∈ blanks, isBlank x = true) (cs : List Char) :
    trim (blanks ++ cs) = trim cs := by
  rw [trim, trimLeft, List.dropWhile_append_of_pos h]
  rfl

theorem trim_append_blanks (h : ∀ x ∈ blanks, isBlank x = true) (cs : List Char) :
    trim (cs ++ blanks) = trim cs := by
  unfold trim trimLeft
  rw [List.dropWhile_append]
  cases cs.dropWhile isBlank with
  | nil => rw [List.isEmpty_nil, if_pos rfl, List.dropWhile_eq_nil_iff.2 h]
  | cons c cs => exact trimRight_append_blanks h (c :: cs)

theorem trim_of_stops (h : Stops isBlank cs) : trim cs = trimRight cs := by
  rw [trim, trimLeft]
  exact congrArg trimRight (dropWhile_append_stop (List.forall_mem_nil _) h)

section words
variable {word : List Char}

theorem trimRight_word_append (hne : word ≠ []) (h : ∀ x ∈ word, isBlank x = false)
    (cs : List Char) : trimRight (word ++ cs) = word ++ trimRight cs := by
  have hlast := trimRight_append_cons (h _ (List.getLast_mem hne)) word.dropLast cs
  rwa [List.append_cons, List.append_cons _ _ (trimRight cs),
    List.dropLast_concat_getLast hne] at hlast

/-- A word in front of a text loses nothing. -/
theorem trim_word_append (hne : word ≠ []) (h : ∀ x ∈ word, isBlank x = false) (cs : List Char) :
    trim (word ++ cs) = word ++ trimRight cs := by
  have hstop : Stops isBlank (word ++ cs) := by
    cases word with
    | nil => exact (hne rfl).elim
    | cons c word => exact stops_cons (h c List.mem_cons_self) _
  rw [trim_of_stops hstop, trimRight_word_append hne h]

theorem trim_word (hne : word ≠ []) (h : ∀ x ∈ word, isBlank x = false) : trim word = word := by
  have hword := trim_word_append hne h []
  rwa [List.append_nil, trimRight, List.reverse_nil, List.dropWhile_nil, List.reverse_nil,
    List.append_nil] at hword

end words

end Receipt.Text
