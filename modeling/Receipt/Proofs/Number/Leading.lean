import Mathlib.Algebra.Group.Nat.Defs
import Mathlib.Data.List.Basic
import Receipt.Number.Reader
import Receipt.Proofs.Text.Run

/-!
# Numbers at the front of a text

Decimal digits of any script spell a number, `Spells`. The number that is read at the front of a
text is spelled there, behind blanks and a sign, and goes as far as digits go: `Leads` and
`leadingInt_eq_ok_iff`. One that is spelled with too many digits is not read,
`leadingInt_eq_tooLong_iff`. The usual writing of a number spells it, `spells_toString`.
-/
namespace Receipt.Text

theorem blankTable_apart_digitTable : blankTable.Apart digitTable := by decide +kernel

theorem isBlank_of_isDecimalDigit_ascii :
    ∀ n < 128, isDecimalDigit (Char.ofNat n) = true → isBlank (Char.ofNat n) = false := by
  decide

theorem Ranges.has_of_start? {table : Ranges} {n : Nat} (h : (table.start? n).isSome = true) :
    table.has n = true := by
  rw [Ranges.start?, Option.isSome_map, List.find?_isSome] at h
  obtain ⟨r, hr, hin⟩ := h
  exact List.any_eq_true.2 ⟨r, hr, hin⟩

theorem isBlank_of_isDecimalDigit {c : Char} (h : isDecimalDigit c = true) : isBlank c = false := by
  by_cases hascii : c.toNat < 128
  · have hsmall := isBlank_of_isDecimalDigit_ascii c.toNat hascii
    rw [Char.ofNat_toNat] at hsmall
    exact hsmall h
  · unfold isDecimalDigit digitValue? at h
    unfold isBlank
    rw [if_neg hascii] at h ⊢
    rw [Option.isSome_map] at h
    exact blankTable_apart_digitTable.has_eq_false (Ranges.has_of_start? h)

end Receipt.Text

namespace Receipt.Number

open Text

/-- Decimal digits spell a number. -/
structure Spells (digits : List Char) (n : Nat) : Prop where
  all_digits : ∀ c ∈ digits, isDecimalDigit c = true
  value : ofDigits (digits.filterMap digitValue?) = n

namespace Spells
variable {digits : List Char} {n : Nat}

theorem ne_nil (h : Spells digits n) (hn : n ≠ 0) : digits ≠ [] := by
  rintro rfl
  exact hn h.value.symm

theorem not_mem (h : Spells digits n) {c : Char} (hc : isDecimalDigit c = false) : c ∉ digits :=
  not_mem_of_forall h.all_digits hc

theorem isBlank (h : Spells digits n) : ∀ c ∈ digits, isBlank c = false :=
  fun c hc => isBlank_of_isDecimalDigit (h.all_digits c hc)

end Spells

theorem signed_of_no_sign {c : Char} (hminus : c ≠ '-') (hplus : c ≠ '+') (cs : List Char) :
    signed (c :: cs) = (false, c :: cs) := by
  unfold signed
  split
  · next h => exact (hminus (List.cons.inj h).1).elim
  · next h => exact (hplus (List.cons.inj h).1).elim
  · rfl

/-- A sign that may stand before digits, and whether it is a minus. -/
inductive IsSign : List Char → Bool → Prop
  | absent : IsSign [] false
  | plus : IsSign ['+'] false
  | minus : IsSign ['-'] true

theorem signed_append {sign : List Char} {negative : Bool} (h : IsSign sign negative) {c : Char}
    (hminus : c ≠ '-') (hplus : c ≠ '+') (cs : List Char) :
    signed (sign ++ c :: cs) = (negative, c :: cs) := by
  cases h with
  | absent => exact signed_of_no_sign hminus hplus cs
  | plus | minus => rfl

theorem isSign_signed (cs : List Char) :
    ∃ sign, IsSign sign (signed cs).1 ∧ cs = sign ++ (signed cs).2 := by
  unfold signed
  split
  · exact ⟨_, .minus, rfl⟩
  · exact ⟨_, .plus, rfl⟩
  · exact ⟨_, .absent, rfl⟩

/-- A whole number stands at the front of a text, behind blanks and a sign, with so many digits, and
no further digit follows it. -/
inductive Leads : List Char → Int → Nat → Prop
  | intro {blanks sign digits rest : List Char} {negative : Bool} {n : Nat} :
      (∀ c ∈ blanks, isBlank c = true) → IsSign sign negative → digits ≠ [] → Spells digits n →
      Stops isDecimalDigit rest →
      Leads (blanks ++ (sign ++ (digits ++ rest))) (applySign negative n) digits.length

theorem length_filterMap_digitValue? {digits : List Char}
    (h : ∀ c ∈ digits, isDecimalDigit c = true) :
    (digits.filterMap digitValue?).length = digits.length := by
  rw [List.length_filterMap_eq_countP, List.countP_eq_length]
  exact h

/-- The number at the front of a text is read if it has not too many digits. -/
theorem leadingInt_of_leads {cs : List Char} {w : Int} {count : Nat} (h : Leads cs w count) :
    leadingInt cs = if digitLimit < count then .error (.tooLong count) else .ok w := by
  cases h with
  | @intro blanks sign digits rest negative n hblanks hsign hne hdigits hstop =>
      obtain ⟨c, more, rfl⟩ := List.exists_cons_of_ne_nil hne
      have hblank : Stops isBlank (sign ++ (c :: more ++ rest)) := by
        cases hsign with
        | absent => exact stops_cons (hdigits.isBlank c List.mem_cons_self) _
        | plus | minus => exact stops_cons (by decide) _
      have htrim : trimLeft (blanks ++ (sign ++ (c :: more ++ rest))) =
          sign ++ (c :: more ++ rest) :=
        dropWhile_append_stop hblanks hblank
      have hminus : c ≠ '-' := (List.ne_of_not_mem_cons (hdigits.not_mem rfl)).symm
      have hplus : c ≠ '+' := (List.ne_of_not_mem_cons (hdigits.not_mem rfl)).symm
      have hrun : (c :: (more ++ rest)).takeWhile isDecimalDigit = c :: more :=
        takeWhile_append_stop hdigits.all_digits hstop
      have hlength := length_filterMap_digitValue? hdigits.all_digits
      rw [leadingInt, htrim, List.cons_append, signed_append hsign hminus hplus]
      simp only [hrun, ofLimitedDigits, hlength, hdigits.value]

/-- What is not malformed at the front of a text has a number there. -/
theorem exists_leads_of_leadingInt {cs : List Char} (h : leadingInt cs ≠ .error .malformed) :
    ∃ w count, Leads cs w count := by
  obtain ⟨sign, hsign, htrim⟩ := isSign_signed (trimLeft cs)
  obtain ⟨rest, hbody, hstop⟩ := exists_run isDecimalDigit (signed (trimLeft cs)).2
  have hblanks : ∀ c ∈ cs.takeWhile isBlank, isBlank c = true :=
    List.all_eq_true.1 List.all_takeWhile
  have hdigits : ∀ c ∈ (signed (trimLeft cs)).2.takeWhile isDecimalDigit,
      isDecimalDigit c = true := List.all_eq_true.1 List.all_takeWhile
  have hcs : cs = cs.takeWhile isBlank ++
      (sign ++ ((signed (trimLeft cs)).2.takeWhile isDecimalDigit ++ rest)) := by
    rw [← hbody, ← htrim]
    exact List.takeWhile_append_dropWhile.symm
  rw [leadingInt] at h
  simp only at h
  split at h
  · exact (h rfl).elim
  · next hne =>
    have hleads := Leads.intro hblanks hsign hne ⟨hdigits, rfl⟩ hstop
    rw [← hcs] at hleads
    exact ⟨_, _, hleads⟩

/-- What is read at the front of a text is the number that stands there, and only that. -/
theorem leadingInt_eq_ok_iff {cs : List Char} {w : Int} :
    leadingInt cs = .ok w ↔ ∃ count ≤ digitLimit, Leads cs w count := by
  constructor
  · intro h
    have hread : leadingInt cs ≠ .error .malformed := by
      rw [h]
      nofun
    obtain ⟨w', count, hleads⟩ := exists_leads_of_leadingInt hread
    rw [leadingInt_of_leads hleads] at h
    split at h
    · cases h
    · next hle =>
      cases h
      exact ⟨count, Nat.not_lt.1 hle, hleads⟩
  · rintro ⟨count, hle, hleads⟩
    rw [leadingInt_of_leads hleads, if_neg (Nat.not_lt.2 hle)]

/-- A number that stands at the front of a text is refused for its digits, and only that. -/
theorem leadingInt_eq_tooLong_iff {cs : List Char} {count : Nat} :
    leadingInt cs = .error (.tooLong count) ↔ digitLimit < count ∧ ∃ w, Leads cs w count := by
  constructor
  · intro h
    have hread : leadingInt cs ≠ .error .malformed := by
      rw [h]
      nofun
    obtain ⟨w, count', hleads⟩ := exists_leads_of_leadingInt hread
    rw [leadingInt_of_leads hleads] at h
    split at h
    · next hlt =>
      cases h
      exact ⟨hlt, w, hleads⟩
    · cases h
  · rintro ⟨hlt, w, hleads⟩
    rw [leadingInt_of_leads hleads, if_pos hlt]

theorem leads_of_spells {digits : List Char} {n : Nat} (h : Spells digits n) (hne : digits ≠ []) :
    Leads digits n digits.length := by
  have hleads : Leads ([] ++ ([] ++ (digits ++ []))) (applySign false n) digits.length :=
    .intro nofun .absent hne h nofun
  rwa [List.append_nil] at hleads

theorem digitValue?_of_isDigit_eq {c : Char} (h : c.isDigit = true) :
    digitValue? c = some (c.toNat - '0'.toNat) := by
  have hascii : c.toNat < 128 := by
    simp only [Char.isDigit, Bool.and_eq_true, decide_eq_true_eq] at h
    exact Nat.lt_of_le_of_lt (UInt32.le_iff_toNat_le.mp h.2) (by decide)
  rw [digitValue?, if_pos hascii, if_pos h]
  rfl

theorem ofDigits_of_isDigit {cs : List Char} (h : ∀ c ∈ cs, c.isDigit = true) :
    ofDigits (cs.filterMap digitValue?) = Nat.ofDigitChars 10 cs 0 := by
  have hvalues : cs.filterMap digitValue? = cs.map fun c => c.toNat - '0'.toNat := by
    rw [← List.filterMap_eq_map]
    exact List.filterMap_congr fun c hc => digitValue?_of_isDigit_eq (h c hc)
  rw [hvalues, ofDigits, List.foldl_map, Nat.ofDigitChars]
  simp only [Nat.mul_comm]

theorem spells_toString (n : Nat) : Spells (toString n).toList n := by
  rw [Nat.toString_eq_ofList_toDigits, String.toList_ofList]
  have hall : ∀ c ∈ Nat.toDigits 10 n, c.isDigit = true := fun _ hc =>
    Nat.isDigit_of_mem_toDigits (by decide) (by decide) hc
  refine ⟨fun c hc => isDecimalDigit_of_isDigit (hall c hc), ?_⟩
  rw [ofDigits_of_isDigit hall]
  exact Nat.ofDigitChars_toDigits (by decide) (by decide)

end Receipt.Number
