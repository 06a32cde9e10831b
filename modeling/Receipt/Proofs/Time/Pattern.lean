import Receipt.Time.Pattern

/-!
# Patterns without a zone

All directives but `%z` and `%Z` print the date and the time of day only, so a pattern without
these two prints moments alike that differ in their offset: `print_withOffset`.
-/
namespace Receipt.Time.Pattern

/-- No directive for the zone stands in the pattern. What is behind `%` belongs to the directive,
so that `%%z` is a percent sign and a letter. -/
def ZoneFree : List Char → Prop
  | '%' :: c :: cs => c ≠ 'z' ∧ c ≠ 'Z' ∧ ZoneFree cs
  | _ :: cs => ZoneFree cs
  | [] => True

variable {zone : Zone} {name : String} {m : Moment} {offset : Option Offset}

/-- The name of the offset does not matter either. -/
theorem fillZone_withOffset {cs : List Char} (h : ZoneFree cs) (other : String) :
    fillZone other { m with offset } cs = fillZone name m cs := by
  fun_induction fillZone name m cs with
  | case1 | case2 | case3 | case4 => rfl
  | case5 cs ih => rw [fillZone, ih h.2.2]
  | case6 cs ih => exact (h.1 rfl).elim
  | case7 cs ih => exact (h.2.1 rfl).elim
  | case8 c cs hnul hf hz hZ ih => rw [fillZone, ih h.2.2] <;> assumption
  | case9 c cs hnul hlast hstop hf hz hZ hpair ih =>
      have hrest : ZoneFree cs := by
        rwa [ZoneFree] at h
        exact hpair
      rw [fillZone, ih hrest] <;> assumption

theorem print?_unfinished {cs : List Char} (h : (readDirective cs).2 = []) (bound : Nat)
    (zone : Zone) (m : Moment) : print? bound zone m ('%' :: cs) =
      if bound ≤ (readDirective cs).1.width then none
      else some (writeUnknown (readDirective cs).1 none ('%' :: cs)) := by
  rw [print?]
  split
  · rfl
  · next hrest =>
    rw [h] at hrest
    cases hrest

theorem print?_directive {cs rest : List Char} {conversion : Char}
    (h : (readDirective cs).2 = conversion :: rest) (bound : Nat)
    (zone : Zone) (m : Moment) : print? bound zone m ('%' :: cs) =
      if bound ≤ (readDirective cs).1.width then none
      else (print? bound zone m rest).map (writeDirective zone m (readDirective cs).1 conversion
        ('%' :: cs.take (cs.length - rest.length)) ++ ·) := by
  rw [print?]
  split
  · next hrest =>
    rw [h] at hrest
    cases hrest
  · next hrest =>
    rw [h] at hrest
    cases hrest
    rfl

theorem print?_withOffset (bound : Nat) (cs : List Char) :
    print? bound zone { m with offset } cs = print? bound zone m cs := by
  fun_induction print? bound zone m cs with
  | case1 => rw [print?]
  | case2 cs f hrest hlimit => rw [print?_unfinished hrest, if_pos hlimit]
  | case3 cs f hrest hlimit => rw [print?_unfinished hrest, if_neg hlimit]
  | case4 cs f conversion rest hrest hlimit => rw [print?_directive hrest, if_pos hlimit]
  | case5 cs f conversion rest hrest hlimit ih =>
      rw [print?_directive hrest, if_neg hlimit, ih]
      rfl
  | case6 c cs hc ih =>
      rw [print?, ih]
      exact hc

theorem print_withOffset {pattern : List Char} (h : ZoneFree pattern) :
    print zone pattern { m with offset } = print zone pattern m := by
  simp only [print, print?_withOffset]
  rw [fillZone_withOffset h]

end Receipt.Time.Pattern
