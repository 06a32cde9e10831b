import Receipt.Json.Reader
import Receipt.Proofs.Number.Numeral

/-!
# Reading numbers of JSON

A numeral is read as a number, and all of it, where a comma or a closing bracket comes after it:
`readNumber_text`. It starts like no word and no string.
-/
namespace Receipt.Json

open Number

/-- What may come after a value: nothing, a comma or a closing bracket. -/
def Ends (rest : List Char) : Prop := ∀ c ∈ rest.head?, c = ',' ∨ c = ']' ∨ c = '\x7d'

theorem Ends.stops {p : Char → Bool} {rest : List Char} (h : Ends rest)
    (hp : p ',' = false ∧ p ']' = false ∧ p '\x7d' = false) : Text.Stops p rest := by
  intro c hc
  rcases h c hc with rfl | rfl | rfl
  · exact hp.1
  · exact hp.2.1
  · exact hp.2.2

theorem Ends.ne_cons {rest : List Char} (h : Ends rest) {c : Char} (hc : c ≠ ',' ∧ c ≠ ']' ∧ c ≠ '\x7d')
    (cs : List Char) : rest ≠ c :: cs := by
  rintro rfl
  rcases h c rfl with rfl | rfl | rfl
  · exact hc.1 rfl
  · exact hc.2.1 rfl
  · exact hc.2.2 rfl

/-! The lengths of the parts of a number, each by itself. -/

def signLength (cs : List Char) : Nat := if cs.head? = some '-' then 1 else 0

def wholeLength (cs : List Char) : Nat :=
  if cs.head? = some '0' then 1 else (cs.takeWhile Char.isDigit).length

def fractionLength (cs : List Char) : Nat :=
  let places :=
    match cs with
    | '.' :: more => (more.takeWhile Char.isDigit).length
    | _ => 0
  if places = 0 then 0 else places + 1

def exponentLength (cs : List Char) : Nat :=
  match cs with
  | e :: more =>
    if e = 'e' ∨ e = 'E' then
      let sign := if more.head? = some '-' ∨ more.head? = some '+' then 1 else 0
      let ds := ((more.drop sign).takeWhile Char.isDigit).length
      if ds = 0 then 0 else 1 + sign + ds
    else 0
  | [] => 0

theorem numberParts?_eq (cs : List Char) :
    numberParts? cs =
      let body := cs.drop (signLength cs)
      if wholeLength body = 0 then none
      else
        let behind := body.drop (wholeLength body)
        some (signLength cs + wholeLength body, fractionLength behind,
          exponentLength (behind.drop (fractionLength behind))) := rfl

section Numeral

variable {t : Numeral} {rest : List Char}

theorem stops_isDigit_power (t : Numeral) (hrest : Ends rest) :
    Text.Stops Char.isDigit (t.power ++ rest) := by
  unfold Numeral.power
  split
  · exact hrest.stops ⟨rfl, rfl, rfl⟩
  · exact Text.stops_cons rfl _

theorem stops_isDigit_fraction (t : Numeral) (hrest : Ends rest) :
    Text.Stops Char.isDigit (t.fraction ++ (t.power ++ rest)) := by
  unfold Numeral.fraction
  split
  · exact stops_isDigit_power t hrest
  · exact Text.stops_cons rfl _

theorem signLength_text (h : t.WellFormed) (rest : List Char) :
    signLength (t.text ++ rest) = t.sign.length := by
  obtain ⟨c, cs, hwhole, hc⟩ := h.exists_digit
  rw [Numeral.text, Numeral.sign, hwhole]
  cases t.negative with
  | true => rfl
  | false => exact if_neg fun hhead => ne_of_isDigit hc rfl (Option.some.inj hhead)

theorem wholeLength_whole (h : t.WellFormed) {tail : List Char}
    (htail : Text.Stops Char.isDigit tail) : wholeLength (t.whole ++ tail) = t.whole.length := by
  rw [wholeLength, Text.takeWhile_append_stop h.whole htail, head?_append_left h.ne_nil]
  split
  · next hzero =>
    rw [h.lead hzero]
    rfl
  · rfl

/-- Neither an exponent nor what ends a number starts with a point. -/
theorem power_ne_point (t : Numeral) (hrest : Ends rest) (more : List Char) :
    t.power ++ rest ≠ '.' :: more := by
  unfold Numeral.power
  split
  · exact hrest.ne_cons (by decide) more
  · intro heq
    exact absurd (List.cons.inj heq).1 (by decide)

theorem fractionLength_fraction (h : t.WellFormed) (hrest : Ends rest) :
    fractionLength (t.fraction ++ (t.power ++ rest)) = t.fraction.length := by
  unfold fractionLength Numeral.fraction
  by_cases hplaces : t.places = []
  · rw [if_pos hplaces, List.nil_append]
    split
    · next more heq => exact absurd heq (power_ne_point t hrest more)
    · rfl
  · have hrun := Text.takeWhile_append_stop h.places (stops_isDigit_power t hrest)
    have hlength : t.places.length ≠ 0 := fun hzero => hplaces (List.length_eq_zero_iff.mp hzero)
    rw [if_neg hplaces]
    simp only [List.cons_append, hrun, if_neg hlength]
    rfl

theorem exponentLength_power (h : t.WellFormed) (hrest : Ends rest) :
    exponentLength (t.power ++ rest) = t.power.length := by
  have hstop : Text.Stops Char.isDigit rest := hrest.stops ⟨rfl, rfl, rfl⟩
  cases hexponent : t.exponent with
  | none =>
      rw [Numeral.power, hexponent, List.nil_append]
      cases rest with
      | nil => rfl
      | cons c cs =>
          rcases hrest c rfl with rfl | rfl | rfl <;> rfl
  | some power =>
      obtain ⟨sign, ds⟩ := power
      obtain ⟨hsign, hne, hdigits⟩ := h.exponent _ hexponent
      have hrun := Text.takeWhile_append_stop hdigits hstop
      have hlength : ds.length ≠ 0 := fun hzero => hne (List.length_eq_zero_iff.mp hzero)
      rw [Numeral.power, hexponent]
      rcases hsign with rfl | rfl
      · simp [exponentLength, hrun, hlength]
        omega
      · simp [exponentLength, hrun, hlength]
        omega

theorem numberParts?_text (h : t.WellFormed) (hrest : Ends rest) :
    numberParts? (t.text ++ rest) =
      some (t.sign.length + t.whole.length, t.fraction.length, t.power.length) := by
  have htext : t.text ++ rest = t.sign ++ (t.whole ++ (t.fraction ++ (t.power ++ rest))) := by
    simp only [Numeral.text, List.append_assoc]
  have hne : t.whole.length ≠ 0 := fun hzero => h.ne_nil (List.length_eq_zero_iff.mp hzero)
  rw [numberParts?_eq, signLength_text h]
  rw [htext, List.drop_left]
  simp only [wholeLength_whole h (stops_isDigit_fraction t hrest), if_neg hne, List.drop_left,
    fractionLength_fraction h hrest, exponentLength_power h hrest]

/-- The whole numeral is read; one that is whole may not have too many digits. -/
theorem readNumber_text (h : t.WellFormed)
    (hlength : t.IsWhole → t.whole.length ≤ digitLimit) (hrest : Ends rest) :
    ∃ v, readNumber (t.text ++ rest) = .ok (v, t.text.length) := by
  have hsum : t.sign.length + t.whole.length + t.fraction.length + t.power.length =
      t.text.length := by
    simp only [Numeral.text, List.length_append]
    omega
  rw [readNumber, numberParts?_text h hrest]
  simp only [hsum, List.take_left]
  by_cases hwhole : t.fraction.length = 0 ∧ t.power.length = 0
  · have hplaces : t.places = [] := by
      by_contra hne
      have hfraction := hwhole.1
      rw [Numeral.fraction, if_neg hne] at hfraction
      cases hfraction
    have hexponent : t.exponent = none := by
      cases hpower : t.exponent with
      | none => rfl
      | some power =>
          have hempty := hwhole.2
          rw [Numeral.power, hpower] at hempty
          cases hempty
    obtain ⟨n, hn⟩ := Numeral.readInt_text h ⟨hplaces, hexponent⟩ (hlength ⟨hplaces, hexponent⟩)
    exact ⟨.int n, by simp only [if_pos hwhole, hn]⟩
  · obtain ⟨d, hd⟩ := Numeral.readDecimal?_text h
    exact ⟨.double d.toDouble, by simp only [if_neg hwhole, hd]⟩

end Numeral

end Receipt.Json
