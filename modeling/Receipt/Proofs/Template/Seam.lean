import Receipt.Host.Standard
import Receipt.Proofs.Except
import Receipt.Proofs.Template.Grammar

/-!
# Texts that no token reaches across

Two texts behind one another are expanded apart if no token starts in the first one and ends in the
second: `expandText_append`. The braces of the texts can show that there is none. A token starts
with an opening brace, and the two closing braces at its end are its only ones; so it ends within
any text that it starts in if two of them end that text, and it needs one to end at all:
`expand_append`.
-/
namespace Receipt.Template

open Text

/-- No token is put together from an end of the first text and a front of the second one. -/
def Apart (s t : List Char) : Prop :=
  ∀ s' w, s' <:+ s → s' ≠ [] → w <+: t → w ≠ [] → ¬ IsToken (s' ++ w)

namespace Apart
variable {s s' t u : List Char}

theorem of_suffix (h : Apart s t) (hs : s' <:+ s) : Apart s' t :=
  fun s'' w hs'' => h s'' w (hs''.trans hs)

/-- A token that starts where the first text does ends in it. -/
theorem prefix_of_isToken (h : Apart s t) (hs : s ≠ []) (hu : IsToken u) (hfront : u <+: s ++ t) :
    u <+: s := by
  rcases List.prefix_or_prefix_of_prefix hfront (List.prefix_append s t) with hshort | hlong
  · exact hshort
  · obtain ⟨w, rfl⟩ := hlong
    cases w with
    | nil => simp
    | cons c w =>
        have hbehind : c :: w <+: t := (List.prefix_append_right_inj s).1 hfront
        exact (h s (c :: w) List.suffix_rfl hs hbehind (List.cons_ne_nil c w) hu).elim

end Apart

theorem Token.scan?_append {cs rest : List Char} {t : Token} (h : Token.scan? cs = some (t, rest))
    (more : List Char) : Token.scan? (cs ++ more) = some (t, rest ++ more) := by
  rw [Token.scan?_eq h, List.append_assoc]
  exact Token.scan?_text_append h (rest ++ more)

theorem Token.scan?_append_eq_none {s t : List Char} (hs : s ≠ []) (hapart : Apart s t)
    (h : Token.scan? s = none) : Token.scan? (s ++ t) = none := by
  cases hscan : Token.scan? (s ++ t) with
  | none => rfl
  | some found =>
      obtain ⟨u, rest⟩ := found
      have htoken := IsToken.of_scan? hscan
      have hfront : u.text <+: s ++ t := ⟨rest, (Token.scan?_eq hscan).symm⟩
      obtain ⟨behind, hbehind⟩ := hapart.prefix_of_isToken hs htoken hfront
      obtain ⟨u', -, hscan'⟩ := htoken.exists_scan?
      rw [← hbehind, hscan' behind] at h
      cases h

namespace Expander
variable [Host] {x : Expander} {data : Value}

theorem expandText_append {s t : List Char} (h : Apart s t) :
    x.expandText data (s ++ t) = (x.expandText data s).bind fun here =>
      (x.expandText data t).map (here ++ ·) := by
  fun_induction Piece.cut s with
  | case1 =>
      rw [expandText_nil, List.nil_append]
      show _ = (x.expandText data t).map ([] ++ ·)
      cases x.expandText data t <;> rfl
  | case2 c rest u after hscan ih =>
      have hsuffix : after <:+ c :: rest := ⟨u.text, (Token.scan?_eq hscan).symm⟩
      rw [expandText_of_scan? (Token.scan?_append hscan t), expandText_of_scan? hscan,
        ih (h.of_suffix hsuffix)]
      cases x.tokenText data u with
      | error e => rfl
      | ok here =>
          cases x.expandText data after with
          | error e => rfl
          | ok more =>
              cases x.expandText data t with
              | error e => rfl
              | ok last => simp [bind, Except.bind, Except.map, pure, Except.pure]
  | case3 c rest hscan ih =>
      have hnone : Token.scan? (c :: (rest ++ t)) = none :=
        Token.scan?_append_eq_none (List.cons_ne_nil c rest) h hscan
      rw [List.cons_append, expandText_cons hnone, expandText_cons hscan,
        ih (h.of_suffix (List.suffix_cons c rest))]
      cases x.expandText data rest with
      | error e => rfl
      | ok here => cases x.expandText data t <;> rfl

end Expander

section braces

theorem Call.WellFormed.brace_not_mem {c : Call} (h : c.WellFormed) : '\x7d' ∉ c.text := by
  simp only [Call.text, List.mem_append, List.mem_cons, not_or]
  exact ⟨not_mem_of_forall h.before (by decide), by decide,
    not_mem_of_forall h.between (by decide), not_mem_of_forall h.name.2 (by decide),
    h.not_mem_argText (by decide)⟩

/-- What a token holds before the two braces that close it. -/
def Token.body (t : Token) : List Char :=
  '\x7b' :: '\x7b' :: (t.lead ++ (t.path ++ (t.suffix ++ t.trail)))

theorem Token.text_eq_body (t : Token) : t.text = t.body ++ ['\x7d', '\x7d'] := by
  simp [Token.text, Token.body]

theorem Token.WellFormed.brace_not_mem {t : Token} (h : t.WellFormed) : '\x7d' ∉ t.body := by
  have hsuffix : '\x7d' ∉ t.suffix := by
    rw [Token.suffix, List.mem_flatMap]
    rintro ⟨c, hc, hmem⟩
    exact (h.calls c hc).brace_not_mem hmem
  simp only [Token.body, List.mem_cons, List.mem_append, not_or]
  exact ⟨by decide, by decide, not_mem_of_forall h.lead (by decide),
    not_mem_of_forall h.path.2 (by decide), hsuffix, not_mem_of_forall h.trail (by decide)⟩

namespace IsToken
variable {u : List Char}

theorem head?_eq (h : IsToken u) : u.head? = some '\x7b' := by
  obtain ⟨t, -, rfl⟩ := h
  rfl

theorem getLast?_eq (h : IsToken u) : u.getLast? = some '\x7d' := by
  obtain ⟨t, -, rfl⟩ := h
  simp [Token.text_eq_body]

theorem count_eq (h : IsToken u) : u.count '\x7d' = 2 := by
  obtain ⟨t, ht, rfl⟩ := h
  rw [Token.text_eq_body, List.count_append, List.count_eq_zero.2 ht.brace_not_mem]
  rfl

end IsToken

section across
variable {s s' t w : List Char}

theorem opening_mem_of_across (hs' : s' ≠ []) (h : IsToken (s' ++ w)) : '\x7b' ∈ s' := by
  cases s' with
  | nil => exact (hs' rfl).elim
  | cons c s' => exact Option.some.inj h.head?_eq ▸ List.mem_cons_self

theorem closing_mem_of_across (hw : w ≠ []) (h : IsToken (s' ++ w)) : '\x7d' ∈ w := by
  have hlast := h.getLast?_eq
  rw [List.getLast?_append, List.getLast?_eq_some_getLast hw, Option.some_or] at hlast
  exact Option.some.inj hlast ▸ List.getLast_mem hw

theorem apart_of_no_opening (h : '\x7b' ∉ s) (t : List Char) : Apart s t :=
  fun _ _ hs' hne _ _ htoken => h (hs'.mem (opening_mem_of_across hne htoken))

theorem apart_of_no_closing (s : List Char) (h : '\x7d' ∉ t) : Apart s t :=
  fun _ _ _ _ hw hne htoken => h (hw.mem (closing_mem_of_across hne htoken))

/-- A token that started before two closing braces would have a third one behind them. -/
theorem apart_of_closed (h : ['\x7d', '\x7d'] <:+ s) (t : List Char) : Apart s t := by
  intro s' w hs' hne _ hw htoken
  rcases List.suffix_or_suffix_of_suffix h hs' with hlong | hshort
  · have hbefore : 2 ≤ s'.count '\x7d' := hlong.sublist.count_le '\x7d'
    have hbehind := List.count_pos_iff.2 (closing_mem_of_across hw htoken)
    have hcount := htoken.count_eq
    rw [List.count_append] at hcount
    omega
  · exact absurd (hshort.mem (opening_mem_of_across hne htoken)) (by decide)

end across
end braces

namespace Expander

/-- Texts are expanded apart if the first one has no opening brace or ends with the two braces that
close a token, or if the second one has no closing brace. Where the first one fails, so does the
whole. -/
theorem expand_append [Host] (x : Expander) (data : Value) {s t : String}
    (h : '\x7b' ∉ s.toList ∨ ['\x7d', '\x7d'] <:+ s.toList ∨ '\x7d' ∉ t.toList) :
    x.expand (.text (s ++ t)) data = do
      let here ← x.expand (.text s) data
      let more ← x.expand (.text t) data
      return here ++ more := by
  have hapart : Apart s.toList t.toList := by
    rcases h with hopening | hclosed | hclosing
    · exact apart_of_no_opening hopening _
    · exact apart_of_closed hclosed _
    · exact apart_of_no_closing _ hclosing
  simp only [expand_text, String.toList_append, expandText_append hapart]
  cases x.expandText data s.toList with
  | error e => rfl
  | ok here =>
      cases x.expandText data t.toList with
      | error e => rfl
      | ok more => simp [bind, Except.bind, Except.map, pure, Except.pure, String.ofList_append]

/-- The token of the first text holds opening braces in its argument, and the second text goes on
with closing ones. -/
theorem expand_append_stray :
    letI := Host.standard 2025
    let x : Expander := ⟨Operators.builtin (.text "%x %X"), .keepToken⟩
    let data : Value := .map [(.text "b", .int 7)]
    ['\x7d', '\x7d'] <:+ "\x7b\x7ba|default:\x7b\x7bb\x7d\x7d".toList ∧
      x.expand (.text ("\x7b\x7ba|default:\x7b\x7bb\x7d\x7d" ++
          "\x7d\x7d, \x7b\x7b b \x7d\x7d")) data = do
        let here ← x.expand (.text "\x7b\x7ba|default:\x7b\x7bb\x7d\x7d") data
        let more ← x.expand (.text "\x7d\x7d, \x7b\x7b b \x7d\x7d") data
        return here ++ more := by
  let host := Host.standard 2025
  intro x data
  have hclosed : ['\x7d', '\x7d'] <:+ "\x7b\x7ba|default:\x7b\x7bb\x7d\x7d".toList := by decide
  exact ⟨hclosed, expand_append x data (.inr (.inl hclosed))⟩

end Expander
end Receipt.Template
