import Mathlib.Algebra.Group.Nat.Defs
import Receipt.Json.Reader
import Receipt.Json.Writer
import Receipt.Proofs.Except

/-!
# Strings of JSON are read back

A string that is written with every character above ASCII escaped is read back as it was,
`readString_string`: the step is one character, which is written as itself, as a short escape, as a
code unit or as two of them.
-/
namespace Receipt.Text.Hex

theorem number?_append_digit (cs : List Char) {d : Nat} (hd : d < 16) :
    number? (cs ++ [digit d]) = (number? cs).map fun n => n * 16 + d := by
  unfold number?
  rw [List.foldlM_append]
  cases List.foldlM (fun n c => Option.map (fun x => n * 16 + x) (value? c)) 0 cs with
  | none => rfl
  | some n => simp [value?_digit d hd]

theorem number?_digits (width n : Nat) : number? (digits width n) = some (n % 16 ^ width) := by
  induction width generalizing n with
  | zero => simp [digits, number?, Nat.mod_one]
  | succ width ih =>
      rw [digits, number?_append_digit _ (Nat.mod_lt _ (by decide)), ih, Option.map_some,
        Nat.pow_succ', Nat.mod_mul]
      congr 1
      omega

end Receipt.Text.Hex

namespace Receipt.Json

theorem fourDigits?_digits {n : Nat} (hn : n < 0x10000) (tail : List Char) :
    fourDigits? (Text.Hex.digits 4 n ++ tail) = some n := by
  have hwidth : n < 16 ^ 4 := hn
  have hdigits := Text.Hex.number?_digits 4 n
  rw [Nat.mod_eq_of_lt hwidth] at hdigits
  exact hdigits

theorem advance_append {p : Nat} {cs tail : List Char} :
    Cursor.advance ⟨p, cs ++ tail⟩ cs.length = ⟨p + cs.length, tail⟩ := by
  rw [Cursor.advance, List.drop_left]

theorem drop_digits (n : Nat) (tail : List Char) :
    (Text.Hex.digits 4 n ++ tail).drop 4 = tail :=
  List.drop_left' (Text.Hex.length_digits 4 n)

theorem not_surrogate (c : Char) :
    isHighSurrogate c.toNat = false ∧ isLowSurrogate c.toNat = false := by
  have hvalid := c.valid
  simp only [UInt32.isValidChar, Nat.isValidChar] at hvalid
  have htoNat : c.toNat = c.val.toNat := rfl
  simp only [isHighSurrogate, isLowSurrogate, Bool.and_eq_false_iff, decide_eq_false_iff_not]
  omega

theorem readSingle_toNat (c : Char) (cursor : Cursor) :
    readSingle c.toNat cursor = .ok (c, cursor.advance 4) := by
  obtain ⟨hhigh, hlow⟩ := not_surrogate c
  rw [readSingle, hhigh, hlow, Char.ofNat_toNat]
  rfl

/-- A code unit that is no half of a pair is a character by itself. -/
theorem readUnit_single {c : Char} (hc : c.toNat < 0x10000) {tail : List Char} (htail : tail ≠ [])
    (p : Nat) :
    readUnit ⟨p, Text.Hex.digits 4 c.toNat ++ tail⟩ = .ok (c, ⟨p + 4, tail⟩) := by
  have hcursor : Cursor.advance ⟨p, Text.Hex.digits 4 c.toNat ++ tail⟩ 4 = ⟨p + 4, tail⟩ := by
    rw [Cursor.advance, drop_digits]
  unfold readUnit
  simp only [fourDigits?_digits hc, drop_digits]
  split
  · next n more heq =>
    cases heq
    simp [not_surrogate c, readSingle_toNat, hcursor]
  · next n head more _ heq =>
    cases heq
    rw [readSingle_toNat, hcursor]
  · next hnone =>
    obtain ⟨head, more, rfl⟩ := List.exists_cons_of_ne_nil htail
    exact absurd rfl (hnone _ _ _ rfl)

theorem toNat_lt (c : Char) : c.toNat < 0x110000 := by
  have hvalid := c.valid
  simp only [UInt32.isValidChar, Nat.isValidChar] at hvalid
  have htoNat : c.toNat = c.val.toNat := rfl
  omega

/-- The two halves of a pair are read as one character. -/
theorem readUnit_pair {high low : Nat} (hhigh : isHighSurrogate high = true)
    (hlow : isLowSurrogate low = true) {tail : List Char} (htail : tail ≠ []) (p : Nat) :
    readUnit ⟨p, Text.Hex.digits 4 high ++ (unit low ++ tail)⟩ =
      .ok (Char.ofNat (0x10000 + (high - 0xD800) * 1024 + (low - 0xDC00)), ⟨p + 10, tail⟩) := by
  have hhighBound : high < 0x10000 := by
    simp only [isHighSurrogate, Bool.and_eq_true, decide_eq_true_eq] at hhigh
    omega
  have hlowBound : low < 0x10000 := by
    simp only [isLowSurrogate, Bool.and_eq_true, decide_eq_true_eq] at hlow
    omega
  have hlength : 4 < (Text.Hex.digits 4 low ++ tail).length := by
    have hpos := List.length_pos_iff.mpr htail
    rw [List.length_append, Text.Hex.length_digits]
    omega
  have hcursor : Cursor.advance ⟨p, Text.Hex.digits 4 high ++ (unit low ++ tail)⟩ 10 =
      ⟨p + 10, tail⟩ := by
    have hten : (Text.Hex.digits 4 high ++ unit low).length = 10 := by
      simp [unit]
    rw [Cursor.advance, ← List.append_assoc, List.drop_left' hten]
  unfold readUnit
  simp only [fourDigits?_digits hhighBound, drop_digits, hcursor]
  simp only [unit, List.cons_append, hhigh, hlength, decide_true, Bool.and_self, if_true,
    fourDigits?_digits hlowBound, hlow]

/-- The halves of the pair that a character beyond sixteen bits is written as. -/
theorem pair_of_toNat {c : Char} (hc : 0x10000 ≤ c.toNat) :
    let high := 0xD800 + (c.toNat - 0x10000) / 1024
    let low := 0xDC00 + (c.toNat - 0x10000) % 1024
    isHighSurrogate high = true ∧ isLowSurrogate low = true ∧
      Char.ofNat (0x10000 + (high - 0xD800) * 1024 + (low - 0xDC00)) = c := by
  intro high low
  have hbound := toNat_lt c
  have hhigh : high = 0xD800 + (c.toNat - 0x10000) / 1024 := rfl
  have hlow : low = 0xDC00 + (c.toNat - 0x10000) % 1024 := rfl
  clear_value high low
  refine ⟨?_, ?_, ?_⟩
  · simp only [isHighSurrogate, Bool.and_eq_true, decide_eq_true_eq]
    omega
  · simp only [isLowSurrogate, Bool.and_eq_true, decide_eq_true_eq]
    omega
  · have hvalue : 0x10000 + (high - 0xD800) * 1024 + (low - 0xDC00) = c.toNat := by omega
    rw [hvalue, Char.ofNat_toNat]

section Step

variable (start fuel : Nat) (seen : List Char) (p : Nat)

theorem readString_plain {c : Char} (hquoted : ¬ (c = '"' ∨ c = '\\')) (hc : ¬ c.toNat < 32)
    (tail : List Char) :
    readString start (fuel + 1) seen ⟨p, c :: tail⟩ =
      readString start fuel (c :: seen) ⟨p + 1, tail⟩ := by
  rw [not_or] at hquoted
  rw [readString.eq_def]
  split
  · next heq => cases heq
  · next heq =>
    cases heq
    simp only
    split
    · next heq => cases heq
    · next heq => exact absurd (List.cons.inj heq).1 hquoted.1
    · next heq => exact absurd (List.cons.inj heq).1 hquoted.2
    · next heq => exact absurd (List.cons.inj heq).1 hquoted.2
    · next heq => exact absurd (List.cons.inj heq).1 hquoted.2
    · next heq =>
      cases heq
      rw [if_neg hc]
      rfl

theorem readString_unit {c : Char} (hc : c.toNat < 0x10000) {tail : List Char}
    (htail : tail ≠ []) :
    readString start (fuel + 1) seen ⟨p, unit c.toNat ++ tail⟩ =
      readString start fuel (c :: seen) ⟨p + (unit c.toNat).length, tail⟩ := by
  have hread := readUnit_single hc htail (p + 2)
  have hlength : (unit c.toNat).length = 6 := by simp [unit]
  rw [hlength]
  simp only [unit, List.cons_append, readString, Cursor.advance, List.drop_succ_cons,
    List.drop_zero, hread]
  rfl

theorem readString_pair {high low : Nat} (hhigh : isHighSurrogate high = true)
    (hlow : isLowSurrogate low = true) {tail : List Char} (htail : tail ≠ []) :
    readString start (fuel + 1) seen ⟨p, (unit high ++ unit low) ++ tail⟩ =
      readString start fuel
        (Char.ofNat (0x10000 + (high - 0xD800) * 1024 + (low - 0xDC00)) :: seen)
        ⟨p + (unit high ++ unit low).length, tail⟩ := by
  have hread := readUnit_pair hhigh hlow htail (p + 2)
  have hlength : (unit high ++ unit low).length = 12 := by simp [unit]
  have htext : (unit high ++ unit low) ++ tail =
      '\\' :: 'u' :: (Text.Hex.digits 4 high ++ (unit low ++ tail)) := by
    simp [unit]
  rw [hlength, htext]
  generalize Char.ofNat (0x10000 + (high - 0xD800) * 1024 + (low - 0xDC00)) = c at hread ⊢
  simp only [readString, Cursor.advance, List.drop_succ_cons, List.drop_zero, hread]
  rfl

/-- What stands for one character in a string is read as that character. -/
theorem readString_escape (c : Char) {tail : List Char} (htail : tail ≠ []) :
    readString start (fuel + 1) seen ⟨p, escape true c ++ tail⟩ =
      readString start fuel (c :: seen) ⟨p + (escape true c).length, tail⟩ := by
  unfold escape
  simp only [Bool.not_true, Bool.false_or, decide_eq_true_eq]
  split
  · next hquoted => rcases hquoted with rfl | rfl <;> rfl
  next hquoted =>
  split
  · next hc =>
    subst hc
    rfl
  split
  · next hc =>
    subst hc
    rfl
  split
  · next hc =>
    subst hc
    rfl
  split
  · next hc =>
    have hback : c = '\x08' := Char.ext (UInt32.toNat_inj.mp hc)
    subst hback
    rfl
  split
  · next hc =>
    have hfeed : c = '\x0c' := Char.ext (UInt32.toNat_inj.mp hc)
    subst hfeed
    rfl
  split
  · next hcontrol => exact readString_unit start fuel seen p (by omega) htail
  next hcontrol =>
  split
  · exact readString_plain start fuel seen p hquoted hcontrol tail
  split
  · next hbasic => exact readString_unit start fuel seen p hbasic htail
  · next hbasic =>
    obtain ⟨hhigh, hlow, hvalue⟩ := pair_of_toNat (Nat.not_lt.mp hbasic)
    have hread := readString_pair start fuel seen p hhigh hlow htail
    rw [hvalue] at hread
    exact hread

end Step

/-- A string is read up to its closing quote, as the characters that were written. -/
theorem readString_escaped (start : Nat) (s rest : List Char) {fuel : Nat} (hfuel : s.length < fuel)
    (seen : List Char) (p : Nat) :
    ∃ q, readString start fuel seen ⟨p, s.flatMap (escape true) ++ '"' :: rest⟩ =
      .ok (String.ofList (seen.reverse ++ s), ⟨q, rest⟩) := by
  induction s generalizing fuel seen p with
  | nil =>
      obtain ⟨fuel, rfl⟩ := Nat.exists_eq_succ_of_ne_zero (Nat.ne_zero_of_lt hfuel)
      refine ⟨p + 1, ?_⟩
      rw [List.append_nil]
      rfl
  | cons c s ih =>
      obtain ⟨fuel, rfl⟩ := Nat.exists_eq_succ_of_ne_zero (Nat.ne_zero_of_lt hfuel)
      have hmore : s.length < fuel := Nat.lt_of_succ_lt_succ hfuel
      have htail : s.flatMap (escape true) ++ '"' :: rest ≠ [] :=
        List.append_ne_nil_of_right_ne_nil _ nofun
      obtain ⟨q, hq⟩ := ih hmore (c :: seen) (p + (escape true c).length)
      refine ⟨q, ?_⟩
      rw [List.flatMap_cons, List.append_assoc, readString_escape start fuel seen p c htail, hq]
      simp

theorem escape_ne_nil (c : Char) : escape true c ≠ [] := by
  unfold escape unit
  dsimp only
  repeat' split
  all_goals nofun

theorem length_le_escaped (s : List Char) : s.length ≤ (s.flatMap (escape true)).length := by
  induction s with
  | nil => exact Nat.zero_le _
  | cons c s ih =>
      have hpos := List.length_pos_iff.mpr (escape_ne_nil c)
      rw [List.flatMap_cons, List.length_append, List.length_cons]
      omega

end Receipt.Json
