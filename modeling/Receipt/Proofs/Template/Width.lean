import Mathlib.Algebra.Group.Int.Defs
import Receipt.Host.Standard
import Receipt.Proofs.Number.Leading
import Receipt.Proofs.Number.Limit
import Receipt.Proofs.Template.Filling
import Receipt.Proofs.Text.Trim
import Receipt.Proofs.Value.Printed

/-!
# Texts of a given width

The argument of an operator has a width if a whole number stands at the front of its first part,
`HasWidth`. A text that is fitted has exactly this width, cut or filled up with blanks: `fit_exact`.
A text that is padded has this width at least and loses nothing, and its filler repeats the filling:
`pad_exact`. Applied to its own result, either operator changes nothing. Neither gives a text of a
value that cannot be printed, or if the width is written with too many digits.
-/
namespace Receipt.Template

open Text

/-- A text with a filler on one side, which takes its characters from the filling again and again. -/
inductive Padded (left : Bool) (fill text : List Char) : List Char → Prop
  | intro {filler : List Char} : (∀ k < filler.length, filler[k]? = fill[k % fill.length]?) →
      Padded left fill text (if left then filler ++ text else text ++ filler)

theorem padded_filledTo (left : Bool) (width : Nat) {fill : List Char} (hfill : fill ≠ [])
    (text : List Char) : Padded left fill text (filledTo left width fill text) := by
  rw [filledTo_eq left width hfill]
  refine .intro fun k hk => ?_
  rw [length_fillerOf hfill] at hk
  exact getElem?_fillerOf hfill hk

/-- How long it is says what a padded text is. -/
theorem Padded.unique {left : Bool} {fill text out out' : List Char} (h : Padded left fill text out)
    (h' : Padded left fill text out') (hlength : out.length = out'.length) : out = out' := by
  cases h with
  | @intro filler hfiller =>
      cases h' with
      | @intro filler' hfiller' =>
          have hsame : filler.length = filler'.length := by
            cases left <;> simpa using hlength
          have hall : filler = filler' := by
            refine List.ext_getElem? fun k => ?_
            rcases Nat.lt_or_ge k filler.length with hk | hk
            · rw [hfiller k hk, hfiller' k (hsame ▸ hk)]
            · rw [List.getElem?_eq_none hk, List.getElem?_eq_none (hsame ▸ hk)]
          rw [hall]

/-- A text in a column of a given width: cut, or with blanks on the side that the alignment leaves
free. A centred text has the odd blank behind it. -/
inductive InColumn (align : Option (List Char)) (width : Nat) (text : List Char) : List Char → Prop
  | cut : width < text.length → InColumn align width text (text.take width)
  | right {n : Nat} : align = some "right".toList → text.length + n = width →
      InColumn align width text (blanks n ++ text)
  | center {before behind : Nat} : align = some "center".toList →
      before + text.length + behind = width → behind = before ∨ behind = before + 1 →
      InColumn align width text (blanks before ++ text ++ blanks behind)
  | left {n : Nat} : align ≠ some "right".toList → align ≠ some "center".toList →
      text.length + n = width → InColumn align width text (text ++ blanks n)

section columns
variable {align : Option (List Char)} {width : Nat} {text out : List Char}

@[simp] theorem length_blanks (n : Nat) : (blanks n).length = n := List.length_replicate

theorem InColumn.length_eq (h : InColumn align width text out) : out.length = width := by
  cases h with
  | cut hlong => exact List.length_take_of_le (Nat.le_of_lt hlong)
  | right _ hwidth | center _ hwidth _ | left _ _ hwidth =>
      simp only [List.length_append, length_blanks]
      omega

/-- What has the width already stays as it is. -/
theorem InColumn.eq_self (h : InColumn align width text out) (hwidth : text.length = width) :
    out = text := by
  cases h with
  | cut hlong => omega
  | @right n _ hsum =>
      obtain rfl : n = 0 := by omega
      rfl
  | @center before behind _ hsum _ =>
      obtain ⟨rfl, rfl⟩ : before = 0 ∧ behind = 0 := by omega
      exact List.append_nil text
  | @left n _ _ hsum =>
      obtain rfl : n = 0 := by omega
      exact List.append_nil text

variable [Host]

theorem fitted_of_lt (align : Align) (h : width < text.length) :
    fitted align width text = .ok (text.take width) := by
  simp only [fitted, Int.toNat_natCast, if_pos h]

theorem fitted_add (align : Align) (text : List Char) {n : Nat} (hmemory : CanMake n) :
    fitted align (text.length + n : Nat) text = .ok (match align with
      | .left => text ++ blanks n
      | .right => blanks n ++ text
      | .center => blanks (n / 2) ++ text ++ blanks (n - n / 2)) := by
  have hhalf : CanMake (n / 2) :=
    ⟨Nat.lt_of_le_of_lt (Nat.div_le_self n 2) hmemory.1,
      Nat.lt_of_le_of_lt (Nat.div_le_self n 2) hmemory.2⟩
  have hfits : ¬ text.length + n < text.length := by omega
  simp only [fitted, Int.toNat_natCast, if_neg hfits, Nat.add_sub_cancel_left]
  cases align with
  | left | right =>
      rw [checkLength_of_canMake hmemory]
      rfl
  | center =>
      rw [checkLength_of_canMake hhalf, if_neg (Nat.not_le.2 hmemory.2)]
      rfl

theorem fitted_inColumn (align : Option (List Char))
    (hmemory : CanMake (width - text.length)) :
    ∃ out, fitted (Align.ofPart align) width text = .ok out ∧ InColumn align width text out := by
  rcases Nat.lt_or_ge width text.length with hlong | hfits
  · exact ⟨_, fitted_of_lt _ hlong, .cut hlong⟩
  · obtain ⟨n, rfl⟩ := Nat.exists_eq_add_of_le hfits
    rw [Nat.add_sub_cancel_left] at hmemory
    refine ⟨_, fitted_add _ text hmemory, ?_⟩
    unfold Align.ofPart
    by_cases hright : align = some "right".toList
    · rw [if_pos hright]
      exact .right hright rfl
    · rw [if_neg hright]
      by_cases hcenter : align = some "center".toList
      · rw [if_pos hcenter]
        exact .center hcenter (by omega) (by omega)
      · rw [if_neg hcenter]
        exact .left hright hcenter rfl

end columns

section digits
variable {digits : List Char} {n : Nat}

theorem unquote_digits (h : ∀ c ∈ digits, isDecimalDigit c = true) : unquote digits = digits := by
  cases digits with
  | nil => rfl
  | cons c digits =>
      refine if_neg fun hpair => ?_
      have hdigit := h c List.mem_cons_self
      rcases hpair.1 with rfl | rfl
      · exact absurd hdigit (by decide)
      · exact absurd hdigit (by decide)

theorem argumentParts_digits (hdigits : Number.Spells digits n) (hne : digits ≠ []) :
    argumentParts (some digits) = [digits] := by
  rw [argumentParts, splitOn_eq_singleton (hdigits.not_mem (by decide)), List.map_singleton,
    trim_word hne hdigits.isBlank, unquote_digits hdigits.all_digits]

/-- One, with more digits than are read. -/
def longOne : List Char := List.replicate Number.digitLimit '0' ++ ['1']

theorem longOne_ne_nil : longOne ≠ [] := List.append_ne_nil_of_right_ne_nil _ (List.cons_ne_nil _ _)

theorem length_longOne : longOne.length = Number.digitLimit + 1 := by
  rw [longOne, List.length_append, List.length_replicate, List.length_singleton]

theorem spells_longOne : Number.Spells longOne 1 := by
  have hzeros : ∀ k, Number.ofDigits (List.replicate k 0 ++ [1]) = 1 := by
    intro k
    induction k with
    | zero => rfl
    | succ k ih => exact ih
  constructor
  · intro c hc
    rcases List.mem_append.1 hc with hc | hc
    · rw [List.eq_of_mem_replicate hc]
      decide
    · rw [List.mem_singleton.1 hc]
      decide
  · have hzero : digitValue? '0' = some 0 := rfl
    rw [longOne, List.filterMap_append, List.filterMap_replicate_of_some hzero]
    exact hzeros _

end digits

/-- The least number that has too many digits. -/
def leastLong : Value := .int (10 ^ Number.digitLimit)

theorem print_leastLong : leastLong.print = .error .tooLong := by
  have hten : (10 : Int).natAbs = 10 := rfl
  have hfits : Number.fits (10 ^ Number.digitLimit) = false := by
    rw [Bool.eq_false_iff, Ne, Number.fits_iff, Int.natAbs_pow, hten]
    exact Nat.lt_irrefl _
  rw [leastLong, Value.print_eq_error_iff, Value.printFault?, hfits]
  rfl

/-- A map with a date as its key, which JSON does not know. -/
def datedMap : Value :=
  .map [(.date ⟨2024, 1, 1, by decide, by decide, by decide, by decide⟩, .text "x")]

theorem print_datedMap : datedMap.print = .error .notJson := by rfl

namespace Operator

/-- The first part of an argument has a whole number at its front, with few enough digits. -/
def HasWidth (arg : Option String) (w : Int) : Prop :=
  ∃ part more, argumentParts (arg.map String.toList) = part :: more ∧
    ∃ count ≤ Number.digitLimit, Number.Leads part w count

/-- The whole number at the front of the first part of an argument has too many digits. -/
def HasLongWidth (arg : Option String) (count : Nat) : Prop :=
  ∃ part more, argumentParts (arg.map String.toList) = part :: more ∧
    Number.digitLimit < count ∧ ∃ w, Number.Leads part w count

section widths
variable {v : Value} {arg : Option String} {w : Int} {count : Nat}

theorem readWidth_eq_some_iff {part : List Char} :
    readWidth part = .ok (some w) ↔ ∃ count ≤ Number.digitLimit, Number.Leads part w count := by
  rw [← Number.leadingInt_eq_ok_iff, readWidth]
  cases Number.leadingInt part with
  | ok n => simp
  | error e => cases e <;> simp

theorem readWidth_eq_tooLong_iff {part : List Char} :
    readWidth part = .error (.widthTooLong count) ↔
      Number.digitLimit < count ∧ ∃ w, Number.Leads part w count := by
  rw [← Number.leadingInt_eq_tooLong_iff, readWidth]
  cases Number.leadingInt part with
  | ok n => simp
  | error e => cases e <;> simp

/-- The width that is read is the one that the argument has. -/
theorem argumentWidth_eq_some_iff :
    argumentWidth (argumentParts (arg.map String.toList)) = .ok (some w) ↔ HasWidth arg w := by
  unfold HasWidth
  cases argumentParts (arg.map String.toList) with
  | nil => simp [argumentWidth]
  | cons part more => simp [argumentWidth, readWidth_eq_some_iff]

theorem argumentWidth_eq_tooLong_iff :
    argumentWidth (argumentParts (arg.map String.toList)) = .error (.widthTooLong count) ↔
      HasLongWidth arg count := by
  unfold HasLongWidth
  cases argumentParts (arg.map String.toList) with
  | nil => simp [argumentWidth]
  | cons part more => simp [argumentWidth, readWidth_eq_tooLong_iff]

theorem hasLongWidth_longOne :
    HasLongWidth (some (String.ofList longOne)) (Number.digitLimit + 1) := by
  have hleads := Number.leads_of_spells spells_longOne longOne_ne_nil
  rw [length_longOne] at hleads
  refine ⟨longOne, [], ?_, Nat.lt_succ_self _, 1, hleads⟩
  rw [Option.map_some, String.toList_ofList, argumentParts_digits spells_longOne longOne_ne_nil]

theorem hasWidth_three : HasWidth (some "3") 3 :=
  argumentWidth_eq_some_iff.1 (by rfl)

/-- The second part of an argument. -/
def secondPart (arg : Option String) : Option (List Char) :=
  (argumentParts (arg.map String.toList))[1]?

variable [Host]

theorem apply_fit (hv : v ≠ .null) (hwidth : HasWidth arg w) :
    fit.apply v arg = (textOf v).bind fun text => if w ≤ 0 then .ok (.text "") else
      (fitted (Align.ofPart (secondPart arg)) w text.toList).map fun cs =>
        .text (String.ofList cs) := by
  rw [← argumentWidth_eq_some_iff] at hwidth
  unfold apply applyFit secondPart
  simp only [hwidth]
  cases textOf v with
  | error e => rfl
  | ok text => split <;> rfl

theorem apply_pad (left : Bool) (hv : v ≠ .null) (hwidth : HasWidth arg w) :
    (pad left).apply v arg = (textOf v).bind fun text =>
      (padding left w (fillOf (secondPart arg)) text.toList).map fun cs =>
        .text (String.ofList cs) := by
  rw [← argumentWidth_eq_some_iff] at hwidth
  unfold apply applyPad secondPart
  simp only [hwidth]
  rfl

theorem fit_longWidth (v : Value) (h : HasLongWidth arg count) :
    fit.apply v arg = .error (.widthTooLong count) := by
  rw [← argumentWidth_eq_tooLong_iff] at h
  unfold apply applyFit
  simp only [h]

theorem pad_longWidth (left : Bool) (v : Value) (h : HasLongWidth arg count) :
    (pad left).apply v arg = .error (.widthTooLong count) := by
  rw [← argumentWidth_eq_tooLong_iff] at h
  unfold apply applyPad
  simp only [h]

theorem fit_unprinted (hv : v ≠ .null) (hwidth : HasWidth arg w) {e : Unwritable}
    (h : v.print = .error e) : fit.apply v arg = .error (.unwritable e) := by
  rw [apply_fit hv hwidth, textOf, h]
  rfl

theorem pad_unprinted (left : Bool) (hv : v ≠ .null) (hwidth : HasWidth arg w) {e : Unwritable}
    (h : v.print = .error e) : (pad left).apply v arg = .error (.unwritable e) := by
  rw [apply_pad left hv hwidth, textOf, h]
  rfl

theorem fit_inColumn (hv : v ≠ .null) (hwidth : HasWidth arg w) {text : String}
    (htext : v.print = .ok text) (hmemory : CanMake (w.toNat - text.length)) :
    ∃ out, fit.apply v arg = .ok (.text (String.ofList out)) ∧
      InColumn (secondPart arg) w.toNat text.toList out := by
  rw [← String.length_toList] at hmemory
  obtain ⟨out, hout, hcolumn⟩ := fitted_inColumn (secondPart arg) hmemory
  refine ⟨out, ?_, hcolumn⟩
  rw [apply_fit hv hwidth, textOf, htext]
  show (if w ≤ 0 then _ else _) = _
  split
  · next hnonpos =>
    have hnil : out = [] := List.length_eq_zero_iff.1 (hcolumn.length_eq.trans (by omega))
    rw [hnil]
  · next hpos =>
    have hcast : ((w.toNat : Nat) : Int) = w := Int.toNat_of_nonneg (by omega)
    rw [hcast] at hout
    rw [hout]
    rfl

theorem fit_twice (hv : v ≠ .null) (hwidth : HasWidth arg w) {text : String}
    (htext : v.print = .ok text) (hmemory : CanMake (w.toNat - text.length)) :
    ∃ out, fit.apply v arg = .ok (.text (String.ofList out)) ∧ (out.length : Int) = max w 0 ∧
      InColumn (secondPart arg) w.toNat text.toList out ∧
      fit.apply (.text (String.ofList out)) arg = .ok (.text (String.ofList out)) := by
  obtain ⟨out, hout, hcolumn⟩ := fit_inColumn hv hwidth htext hmemory
  have hlength := hcolumn.length_eq
  have hagain : CanMake (w.toNat - (String.ofList out).length) := by
    rw [String.length_ofList, hlength, Nat.sub_self]
    exact ⟨by decide, Nat.zero_lt_of_lt hmemory.2⟩
  obtain ⟨out', hout', hcolumn'⟩ := fit_inColumn (v := .text (String.ofList out)) nofun hwidth
    (Value.print_text _) hagain
  rw [String.toList_ofList] at hcolumn'
  rw [hcolumn'.eq_self hlength] at hout'
  exact ⟨out, hout, by omega, hcolumn, hout'⟩

/-- What is fitted has exactly the width: it is cut, or has blanks where the alignment wants them.
Fitted again, it stays as it is. A value that cannot be printed is refused, and so is every value if
the width has too many digits. -/
theorem fit_exact (hv : v ≠ .null) :
    (∀ w, HasWidth arg w →
      (∀ text, v.print = .ok text → CanMake (w.toNat - text.length) →
        ∃ out, fit.apply v arg = .ok (.text (String.ofList out)) ∧ (out.length : Int) = max w 0 ∧
          InColumn (secondPart arg) w.toNat text.toList out ∧
          fit.apply (.text (String.ofList out)) arg = .ok (.text (String.ofList out))) ∧
      ∀ e, v.print = .error e → fit.apply v arg = .error (.unwritable e)) ∧
    ∀ count, HasLongWidth arg count → fit.apply v arg = .error (.widthTooLong count) := by
  refine ⟨fun w hwidth => ⟨?_, ?_⟩, fun count => fit_longWidth v⟩
  · exact fun text htext hmemory => fit_twice hv hwidth htext hmemory
  · exact fun e h => fit_unprinted hv hwidth h

omit [Host] in
/-- A quoted width with a blank, a sign and digits of another script, and five blanks to share. -/
theorem fit_exact_center :
    letI := Host.standard 2025
    let arg := some "' +\u0660\u0667 px', \"center\" "
    fit.apply (.int (-7)) arg = .ok (.text "  -7   ") ∧
      fit.apply (.text "  -7   ") arg = .ok (.text "  -7   ") := by
  intro arg
  let host := Host.standard 2025
  have hdigits : Number.Spells ['\u0660', '\u0667'] 7 :=
    ⟨List.all_eq_true.1 (by decide), by decide⟩
  have hleads : Number.Leads ([' '] ++ (['+'] ++ (['\u0660', '\u0667'] ++ " px".toList))) 7 2 :=
    .intro (List.all_eq_true.1 (by decide)) .plus (by decide) hdigits (stops_cons (by decide) _)
  have hwidth : HasWidth arg 7 :=
    ⟨_, ["center".toList], by decide +kernel, 2, by decide, hleads⟩
  have halign : secondPart arg = some "center".toList := by decide +kernel
  have htext : (Value.int (-7)).print = .ok "-7" := by decide
  obtain ⟨out, hout, -, hcolumn, hagain⟩ :=
    ((fit_exact (v := .int (-7)) nofun).1 7 hwidth).1 "-7" htext (by decide)
  rw [halign] at hcolumn
  have hresult : String.ofList out = "  -7   " := by
    cases hcolumn with
    | cut hlong => exact absurd hlong (by decide)
    | right hright => exact absurd hright (by decide)
    | @center before behind _ hsum hsides =>
        have hlength : "-7".toList.length = 2 := by decide
        obtain ⟨rfl, rfl⟩ : before = 2 ∧ behind = 3 := by omega
        decide
    | left _ hcenter => exact (hcenter rfl).elim
  rw [hresult] at hout hagain
  exact ⟨hout, hagain⟩

omit [Host] in
/-- A number with too many digits and a map with a date as a key are not fitted, and a width with too
many digits is not read. -/
theorem exists_fit_refused :
    letI := Host.standard 2025
    (HasWidth (some "3") 3 ∧ fit.apply leastLong (some "3") = .error (.unwritable .tooLong) ∧
        fit.apply datedMap (some "3") = .error (.unwritable .notJson)) ∧
      (HasLongWidth (some (String.ofList longOne)) (Number.digitLimit + 1) ∧
        fit.apply (.text "x") (some (String.ofList longOne)) =
          .error (.widthTooLong (Number.digitLimit + 1))) ∧
      ¬ ∀ (v : Value) (arg : Option String) (w : Int), v ≠ .null → HasWidth arg w →
        CanMake w.toNat → ∃ out : String, fit.apply v arg = .ok (.text out) := by
  let host := Host.standard 2025
  have hrefused := fit_unprinted (v := leastLong) nofun hasWidth_three print_leastLong
  have hdated := fit_unprinted (v := datedMap) nofun hasWidth_three print_datedMap
  refine ⟨⟨hasWidth_three, hrefused, hdated⟩, ⟨hasLongWidth_longOne, ?_⟩, fun hall => ?_⟩
  · exact fit_longWidth (.text "x") hasLongWidth_longOne
  · obtain ⟨out, hout⟩ := hall leastLong (some "3") 3 nofun hasWidth_three (by decide)
    rw [hrefused] at hout
    cases hout

omit [Host] in
theorem fillOf_ne_nil (part : Option (List Char)) : fillOf part ≠ [] := by
  unfold fillOf
  split
  · exact List.cons_ne_nil _ _
  · exact List.cons_ne_nil _ _
  · next cs _ hcs =>
    rintro rfl
    exact hcs rfl

theorem pad_filledTo (left : Bool) (hv : v ≠ .null) (hwidth : HasWidth arg w) {text : String}
    (htext : v.print = .ok text)
    (hmemory : FitsMemory w.toNat (fillOf (secondPart arg)) text.toList) :
    (pad left).apply v arg = .ok (.text (String.ofList
      (filledTo left w.toNat (fillOf (secondPart arg)) text.toList))) := by
  rw [apply_pad left hv hwidth, textOf, htext]
  show (padding left w _ text.toList).map _ = _
  rw [padding_toNat, padding_eq_filledTo left (fillOf_ne_nil _) hmemory]
  rfl

theorem pad_twice (left : Bool) (hv : v ≠ .null) (hwidth : HasWidth arg w) {text : String}
    (htext : v.print = .ok text)
    (hmemory : FitsMemory w.toNat (fillOf (secondPart arg)) text.toList) :
    ∃ out, (pad left).apply v arg = .ok (.text (String.ofList out)) ∧
      (out.length : Int) = max w text.length ∧
      Padded left (fillOf (secondPart arg)) text.toList out ∧
      (pad left).apply (.text (String.ofList out)) arg = .ok (.text (String.ofList out)) := by
  have hfill := fillOf_ne_nil (secondPart arg)
  let out := filledTo left w.toNat (fillOf (secondPart arg)) text.toList
  have hlength : out.length = max w.toNat text.length := by
    rw [← String.length_toList]
    exact length_filledTo left w.toNat hfill _
  have hwide : w.toNat ≤ (String.ofList out).toList.length := by
    rw [String.toList_ofList]
    omega
  have hagain := pad_filledTo (v := .text (String.ofList out)) left nofun hwidth
    (Value.print_text _) (.inl hwide)
  rw [filledTo_of_le left _ hwide, String.toList_ofList] at hagain
  exact ⟨out, pad_filledTo left hv hwidth htext hmemory, by omega, padded_filledTo left _ hfill _,
    hagain⟩

/-- What is padded has the width, unless it was wider already, and keeps its text as a whole. The
filling is repeated from its start, on whichever side it stands. Padded again, nothing is added. A
value that cannot be printed is refused, and so is every value if the width has too many digits. -/
theorem pad_exact (left : Bool) (hv : v ≠ .null) :
    (∀ w, HasWidth arg w →
      (∀ text, v.print = .ok text →
        FitsMemory w.toNat (fillOf (secondPart arg)) text.toList →
        ∃ out, (pad left).apply v arg = .ok (.text (String.ofList out)) ∧
          (out.length : Int) = max w text.length ∧
          Padded left (fillOf (secondPart arg)) text.toList out ∧
          (pad left).apply (.text (String.ofList out)) arg = .ok (.text (String.ofList out))) ∧
      ∀ e, v.print = .error e → (pad left).apply v arg = .error (.unwritable e)) ∧
    ∀ count, HasLongWidth arg count → (pad left).apply v arg = .error (.widthTooLong count) := by
  refine ⟨fun w hwidth => ⟨?_, ?_⟩, fun count => pad_longWidth left v⟩
  · exact fun text htext hmemory => pad_twice left hv hwidth htext hmemory
  · exact fun e h => pad_unprinted left hv hwidth h

omit [Host] in
/-- Five characters of a quoted filling of three, before a truth value. -/
theorem pad_exact_quoted :
    letI := Host.standard 2025
    let arg := some "+09, '-= '"
    (pad true).apply (.bool true) arg = .ok (.text "-= -=true") ∧
      (pad true).apply (.text "-= -=true") arg = .ok (.text "-= -=true") := by
  intro arg
  let host := Host.standard 2025
  have hdigits : Number.Spells ['0', '9'] 9 := ⟨List.all_eq_true.1 (by decide), by decide⟩
  have hleads : Number.Leads ([] ++ (['+'] ++ (['0', '9'] ++ []))) 9 2 :=
    .intro (List.forall_mem_nil _) .plus (by decide) hdigits fun _ hc => by cases hc
  have hwidth : HasWidth arg 9 := ⟨_, ["-= ".toList], by decide +kernel, 2, by decide, hleads⟩
  have hfill : fillOf (secondPart arg) = "-= ".toList := by decide +kernel
  obtain ⟨out, hout, hlength, hpadded, hagain⟩ :=
    ((pad_exact (v := .bool true) true nofun).1 9 hwidth).1 "true" rfl
      (.inr (by rw [hfill]; decide))
  rw [hfill] at hpadded
  have hexpected : Padded true "-= ".toList "true".toList ("-= -=".toList ++ "true".toList) :=
    .intro (by decide)
  have hresult : out = "-= -=".toList ++ "true".toList := by
    refine hpadded.unique hexpected ?_
    have hfour : "true".length = 4 := by decide
    have hnine : ("-= -=".toList ++ "true".toList).length = 9 := by decide
    omega
  rw [hresult] at hout hagain
  exact ⟨hout, hagain⟩

omit [Host] in
/-- A number with too many digits and a map with a date as a key are not padded, and a width with too
many digits is not read. -/
theorem exists_pad_refused :
    letI := Host.standard 2025
    (HasWidth (some "3") 3 ∧
        (pad true).apply leastLong (some "3") = .error (.unwritable .tooLong) ∧
        (pad true).apply datedMap (some "3") = .error (.unwritable .notJson)) ∧
      (HasLongWidth (some (String.ofList longOne)) (Number.digitLimit + 1) ∧
        (pad true).apply (.text "x") (some (String.ofList longOne)) =
          .error (.widthTooLong (Number.digitLimit + 1))) ∧
      ¬ ∀ (left : Bool) (v : Value) (arg : Option String) (w : Int), v ≠ .null →
        HasWidth arg w → CanMake w.toNat → ∃ out : String, (pad left).apply v arg = .ok (.text out) := by
  let host := Host.standard 2025
  have hrefused := pad_unprinted (v := leastLong) true nofun hasWidth_three print_leastLong
  have hdated := pad_unprinted (v := datedMap) true nofun hasWidth_three print_datedMap
  refine ⟨⟨hasWidth_three, hrefused, hdated⟩, ⟨hasLongWidth_longOne, ?_⟩, fun hall => ?_⟩
  · exact pad_longWidth true (.text "x") hasLongWidth_longOne
  · obtain ⟨out, hout⟩ := hall true leastLong (some "3") 3 nofun hasWidth_three (by decide)
    rw [hrefused] at hout
    cases hout

end widths

end Operator
end Receipt.Template
