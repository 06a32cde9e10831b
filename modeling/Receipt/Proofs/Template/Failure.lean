import Receipt.Proofs.Except
import Receipt.Template.Expand

/-!
# How expansion fails

An expansion fails only if an operator does or a value cannot be printed, and each operator has its
own failures, `Operator.MayFail`. The built-in ones fail for a value that cannot be printed, for a
width, a length or a moment, and for the time pattern only if that is no text.
-/
namespace Receipt.Template

variable [Host]

/-- A failure to print a value. -/
def Error.OfPrinting (e : Error) : Prop := ∃ why, e = .unwritable why

/-- A failure to make a text of the length that was asked for. -/
def Error.OfLength (e : Error) : Prop := e = .tooWide ∨ e = .outOfMemory

/-- A failure to fill a text up, for the width or for the length. -/
def Error.OfWidth (e : Error) : Prop := (∃ digits, e = .widthTooLong digits) ∨ e.OfLength

omit [Host] in
theorem textOf_eq_error {v : Value} {e : Error} (h : textOf v = .error e) : e.OfPrinting := by
  obtain ⟨why, -, rfl⟩ := mapError_eq_error h
  exact ⟨why, rfl⟩

theorem checkLength_eq_error {n : Nat} {e : Error} (h : checkLength n = .error e) : e.OfLength := by
  unfold checkLength at h
  split at h
  · cases h
    exact .inl rfl
  · split at h
    · cases h
      exact .inr rfl
    · cases h

theorem padding_eq_error {left : Bool} {width : Int} {fill text : List Char} {e : Error}
    (h : padding left width fill text = .error e) : e.OfLength := by
  unfold padding at h
  dsimp only at h
  split at h
  · cases h
  · rcases bind_eq_error h with hlength | ⟨_, -, hfilled⟩
    · exact checkLength_eq_error hlength
    · cases hfilled

theorem fitted_eq_error {align : Align} {width : Int} {text : List Char} {e : Error}
    (h : fitted align width text = .error e) : e.OfLength := by
  unfold fitted at h
  dsimp only at h
  split at h
  · cases h
  · cases align with
    | left | right =>
        rcases bind_eq_error h with hlength | ⟨_, -, hfilled⟩
        · exact checkLength_eq_error hlength
        · cases hfilled
    | center =>
        rcases bind_eq_error h with hlength | ⟨_, -, hmore⟩
        · exact checkLength_eq_error hlength
        · split at hmore
          · cases hmore
            exact .inr rfl
          · cases hmore

omit [Host] in
theorem argumentWidth_eq_error {parts : List (List Char)} {e : Error}
    (h : argumentWidth parts = .error e) : ∃ digits, e = .widthTooLong digits := by
  cases parts with
  | nil => cases h
  | cons part parts =>
      rw [argumentWidth, readWidth] at h
      split at h
      · cases h
      · cases h
      · next digits _ =>
        cases h
        exact ⟨digits, rfl⟩

theorem onLocalClock_eq_error {m : Time.Moment} {e : Error} (h : onLocalClock m = .error e) :
    e = .outsideCalendar := by
  unfold onLocalClock at h
  split at h
  · cases h
  · cases h
    rfl

/-- A moment is not found if its offset is too large, or the calendar ends before it. -/
theorem momentOf_eq_error {v : Value} {e : Error} (h : momentOf v = .error e) :
    e = .outsideCalendar ∨ e = .offsetTooLarge := by
  unfold momentOf at h
  split at h
  · exact .inl (onLocalClock_eq_error (map_eq_error h))
  · cases h
  · cases h
  · unfold momentOfText at h
    split at h
    · cases h
    · split at h
      · cases h
      · split at h
        · cases h
        · split at h
          · cases h
            exact .inr rfl
          · exact .inl (onLocalClock_eq_error (map_eq_error h))
  · cases h

namespace Operator

/-- The failures that an operator may have. -/
def MayFail : Operator → Error → Prop
  | .default, e => e.OfPrinting
  | .pad _, e => e.OfPrinting ∨ e.OfWidth
  | .fit, e => e.OfPrinting ∨ e.OfWidth
  | .format pattern, e =>
    e = .unwritable .tooLong ∨ e = .outsideCalendar ∨ e = .offsetTooLarge ∨
      e = .patternNotText ∧ pattern.text? = none
  | .custom _ rule, e => ∃ v arg, rule v arg = .error e

omit [Host] in
theorem applyDefault_eq_error {v : Value} {arg : Option (List Char)} {e : Error}
    (h : applyDefault v arg = .error e) : e.OfPrinting := by
  unfold applyDefault at h
  split at h
  · cases h
  · cases h
  · cases h
  · rcases bind_eq_error h with htext | ⟨text, -, hdone⟩
    · exact textOf_eq_error htext
    · cases hdone

theorem applyPad_eq_error {left : Bool} {v : Value} {arg : Option (List Char)} {e : Error}
    (h : applyPad left v arg = .error e) : e.OfPrinting ∨ e.OfWidth := by
  unfold applyPad at h
  dsimp only at h
  split at h
  · next hwidth =>
    cases h
    exact .inr (.inl (argumentWidth_eq_error hwidth))
  · cases h
  · cases h
  · rcases bind_eq_error h with htext | ⟨text, -, hpad⟩
    · exact .inl (textOf_eq_error htext)
    · rcases bind_eq_error hpad with hpad | ⟨cs, -, hdone⟩
      · exact .inr (.inr (padding_eq_error hpad))
      · cases hdone

theorem applyFit_eq_error {v : Value} {arg : Option (List Char)} {e : Error}
    (h : applyFit v arg = .error e) : e.OfPrinting ∨ e.OfWidth := by
  unfold applyFit at h
  dsimp only at h
  split at h
  · next hwidth =>
    cases h
    exact .inr (.inl (argumentWidth_eq_error hwidth))
  · cases h
  · cases h
  · rcases bind_eq_error h with htext | ⟨text, -, hfit⟩
    · exact .inl (textOf_eq_error htext)
    · split at hfit
      · cases hfit
      · rcases bind_eq_error hfit with hfit | ⟨cs, -, hdone⟩
        · exact .inr (.inr (fitted_eq_error hfit))
        · cases hdone

theorem applyFormat_eq_error {pattern v : Value} {arg : Option (List Char)} {e : Error}
    (h : applyFormat pattern v arg = .error e) : (Operator.format pattern).MayFail e := by
  unfold applyFormat at h
  split at h
  · cases h
  · rcases bind_eq_error h with hmoment | ⟨found, -, hprint⟩
    · exact .inr ((momentOf_eq_error hmoment).imp_right .inl)
    · cases found with
      | none =>
          dsimp only at hprint
          split at hprint
          · cases hprint
          · cases hprint
            exact .inl rfl
      | some m =>
          dsimp only at hprint
          split at hprint
          · next hpattern =>
            cases hprint
            exact .inr (.inr (.inr ⟨rfl, hpattern⟩))
          · cases hprint

theorem apply_eq_error {op : Operator} {v : Value} {arg : Option String} {e : Error}
    (h : op.apply v arg = .error e) : op.MayFail e := by
  cases op with
  | default => exact applyDefault_eq_error h
  | pad left => exact applyPad_eq_error h
  | fit => exact applyFit_eq_error h
  | format pattern => exact applyFormat_eq_error h
  | custom kind rule => exact ⟨v, arg, h⟩

end Operator

namespace Operators

/-- One of the operators may fail so. -/
def MayFail (ops : Operators) (e : Error) : Prop := ∃ entry ∈ ops, entry.2.MayFail e

omit [Host] in
theorem mem_of_get? {name : String} {ops : Operators} {op : Operator}
    (h : ops.get? name = some op) : (name, op) ∈ ops := by
  induction ops with
  | nil => cases h
  | cons entry ops ih =>
      obtain ⟨first, op'⟩ := entry
      rw [get?] at h
      split at h
      · next hname =>
        cases h
        exact hname ▸ List.mem_cons_self
      · exact List.mem_cons_of_mem _ (ih h)

theorem applyOne_eq_error {ops : Operators} {v : Value} {operation : Operation} {e : Error}
    (h : ops.applyOne v operation = .error e) : ops.MayFail e := by
  unfold applyOne at h
  split at h
  · next op hop => exact ⟨_, mem_of_get? hop, Operator.apply_eq_error h⟩
  · cases h

theorem run_eq_error {ops : Operators} {v : Value} {operations : List Operation} {e : Error}
    (h : ops.run v operations = .error e) : ops.MayFail e := by
  unfold run at h
  induction operations generalizing v with
  | nil => cases h
  | cons operation operations ih =>
      rw [List.foldlM_cons] at h
      rcases bind_eq_error h with hfirst | ⟨_, -, hmore⟩
      · exact applyOne_eq_error hfirst
      · exact ih hmore

end Operators

namespace Expander

variable {x : Expander} {data : Value} {e : Error}

/-- A failure of expansion: one of printing, or one of an operator. -/
def MayFail (x : Expander) (e : Error) : Prop := e.OfPrinting ∨ x.operators.MayFail e

theorem pieceText_eq_error {p : Piece} (h : x.pieceText data p = .error e) : x.MayFail e := by
  cases p with
  | char c => cases h
  | token t =>
      rcases bind_eq_error h with hrun | ⟨v, -, hprint⟩
      · exact .inr (Operators.run_eq_error hrun)
      · rcases bind_eq_error hprint with htext | ⟨text, -, hdone⟩
        · exact .inl (textOf_eq_error htext)
        · cases hdone

theorem piecesText_eq_error {ps : List Piece} (h : x.piecesText data ps = .error e) :
    x.MayFail e := by
  induction ps with
  | nil => cases h
  | cons p ps ih =>
      rcases bind_eq_error h with hhere | ⟨here, -, hrest⟩
      · exact pieceText_eq_error hhere
      · rcases bind_eq_error hrest with hmore | ⟨more, -, htext⟩
        · exact ih hmore
        · cases htext

theorem expand_eq_error {template : Value} (h : x.expand template data = .error e) :
    x.MayFail e := by
  rcases bind_eq_error h with htext | ⟨text, -, hpieces⟩
  · exact .inl (textOf_eq_error htext)
  · exact piecesText_eq_error (map_eq_error hpieces)

end Expander
end Receipt.Template
