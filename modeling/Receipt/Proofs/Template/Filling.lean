import Mathlib.Data.List.Basic
import Receipt.Template.Operator

/-!
# Texts that are filled up

A filler is the filling in a row, cut where there is enough of it: `fillerOf_eq_take`. A text is
filled up with it to a width, `filledTo`, as far as memory allows: `padding_eq_filledTo`.
-/
namespace Receipt.Template

variable {fill : List Char}

theorem fillerOf_succ (fill : List Char) (n : Nat) :
    fillerOf fill (n + 1) = fillerOf fill n ++ fill[n % fill.length]?.toList := by
  rw [fillerOf, List.range_succ, List.filterMap_append]
  cases h : fill[n % fill.length]? <;> simp [fillerOf, h]

theorem fillerOf_of_le {n : Nat} (h : n ≤ fill.length) : fillerOf fill n = fill.take n := by
  induction n with
  | zero => rfl
  | succ n ih => rw [fillerOf_succ, ih (by omega), Nat.mod_eq_of_lt h, List.take_add_one]

theorem fillerOf_length_add (fill : List Char) (n : Nat) :
    fillerOf fill (fill.length + n) = fill ++ fillerOf fill n := by
  induction n with
  | zero =>
      rw [Nat.add_zero, fillerOf_of_le (Nat.le_refl _), List.take_length]
      exact (List.append_nil fill).symm
  | succ n ih =>
      rw [← Nat.add_assoc, fillerOf_succ, ih, Nat.add_mod_left, List.append_assoc, ← fillerOf_succ]

/-- A filler is the filling in a row, as often as is enough, and cut. -/
theorem fillerOf_eq_take {n times : Nat} (h : n ≤ times * fill.length) :
    fillerOf fill n = (List.replicate times fill).flatten.take n := by
  induction times generalizing n with
  | zero =>
      obtain rfl : n = 0 := by omega
      rfl
  | succ times ih =>
      rw [List.replicate_succ, List.flatten_cons]
      rcases Nat.le_total n fill.length with hshort | hlong
      · rw [fillerOf_of_le hshort, List.take_append_of_le_length hshort]
      · obtain ⟨more, rfl⟩ := Nat.exists_eq_add_of_le hlong
        have hmore : more ≤ times * fill.length := by
          rw [Nat.succ_mul] at h
          omega
        rw [fillerOf_length_add, ih hmore, List.take_length_add_append]

theorem length_fillerOf (hfill : fill ≠ []) (n : Nat) : (fillerOf fill n).length = n := by
  induction n with
  | zero => rfl
  | succ n ih =>
      have hlt : n % fill.length < fill.length := Nat.mod_lt n (List.length_pos_iff.2 hfill)
      rw [fillerOf_succ, List.length_append, ih, List.getElem?_eq_getElem hlt]
      rfl

theorem getElem?_fillerOf (hfill : fill ≠ []) {n k : Nat} (h : k < n) :
    (fillerOf fill n)[k]? = fill[k % fill.length]? := by
  induction n with
  | zero => exact (Nat.not_lt_zero k h).elim
  | succ n ih =>
      have hlength : (fillerOf fill n).length = n := length_fillerOf hfill n
      rw [fillerOf_succ]
      rcases Nat.lt_or_eq_of_le (Nat.le_of_lt_succ h) with hlt | rfl
      · rw [List.getElem?_append_left (by omega), ih hlt]
      · rw [List.getElem?_append_right (by omega), hlength, Nat.sub_self]
        cases fill[k % fill.length]? <;> rfl

/-- A text filled up to a width on one side, with the filling in a row, cut to what is needed. -/
def filledTo (left : Bool) (width : Nat) (fill text : List Char) : List Char :=
  let filler := (List.replicate width fill).flatten.take (width - text.length)
  if left then filler ++ text else text ++ filler

theorem filledTo_eq (left : Bool) (width : Nat) (hfill : fill ≠ []) (text : List Char) :
    filledTo left width fill text =
      if left then fillerOf fill (width - text.length) ++ text
      else text ++ fillerOf fill (width - text.length) := by
  have hpos : 0 < fill.length := List.length_pos_iff.2 hfill
  have henough : width - text.length ≤ width * fill.length :=
    Nat.le_trans (Nat.sub_le _ _) (Nat.le_mul_of_pos_right width hpos)
  rw [filledTo, fillerOf_eq_take henough]

theorem length_filledTo (left : Bool) (width : Nat) (hfill : fill ≠ []) (text : List Char) :
    (filledTo left width fill text).length = max width text.length := by
  rw [filledTo_eq left width hfill]
  cases left <;> simp [length_fillerOf hfill] <;> omega

theorem filledTo_of_le (left : Bool) {width : Nat} (fill : List Char) {text : List Char}
    (h : width ≤ text.length) : filledTo left width fill text = text := by
  rw [filledTo, Nat.sub_eq_zero_of_le h, List.take_zero]
  cases left
  · exact List.append_nil text
  · rfl

section host
variable [Host]

/-- Texts have so many characters, and memory holds them. -/
def CanMake (n : Nat) : Prop := n < lengthBound ∧ n < Host.memory

instance (n : Nat) : Decidable (CanMake n) := inferInstanceAs (Decidable (_ ∧ _))

/-- Nothing has to be filled up, or the fillings in a row can be made before they are cut. -/
def FitsMemory (width : Nat) (fill text : List Char) : Prop :=
  width ≤ text.length ∨ CanMake (((width - text.length) / fill.length + 1) * fill.length)

theorem checkLength_of_canMake {n : Nat} (h : CanMake n) : checkLength n = .ok () := by
  rw [checkLength, if_neg (Nat.not_le.2 h.1), if_neg (Nat.not_le.2 h.2)]

/-- A width below zero is as good as none. -/
theorem padding_toNat (left : Bool) (width : Int) (fill text : List Char) :
    padding left width fill text = padding left width.toNat fill text := by
  have hneeded : (width - text.length).toNat = ((width.toNat : Int) - text.length).toNat := by
    omega
  rw [padding, padding, hneeded]

theorem padding_eq_filledTo (left : Bool) {width : Nat} (hfill : fill ≠ []) {text : List Char}
    (hfits : FitsMemory width fill text) :
    padding left width fill text = .ok (filledTo left width fill text) := by
  have hneeded : ((width : Int) - text.length).toNat = width - text.length := by omega
  rw [padding, filledTo_eq left width hfill]
  simp only [hneeded, hfill, or_false]
  rcases Nat.eq_zero_or_pos (width - text.length) with hzero | hpos
  · rw [if_pos hzero, hzero]
    cases left
    · exact congrArg Except.ok (List.append_nil text).symm
    · rfl
  · rw [if_neg (by omega), checkLength_of_canMake (hfits.resolve_left (by omega))]
    rfl

end host

end Receipt.Template
