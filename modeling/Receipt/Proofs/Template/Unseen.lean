import Receipt.Host.Standard
import Receipt.Proofs.Template.Failure
import Receipt.Proofs.Template.Moments
import Receipt.Proofs.Template.Quoted
import Receipt.Proofs.Template.Session
import Receipt.Proofs.Value.Printed

/-!
# Padding that adds nothing

A text that has the width already is not filled up, but what comes out of the operator is the text of
the value, and no longer the value: `Operator.pad_of_le`. Most operators do not see the difference.
An unresolved path is replaced by `default` and its text is not, and `format` reads a value in
another way than its text; operations behind a pad tell the two from each other, `Tells`, if they
come to one of these while the value is still there. Exactly then the pad is seen: `pad_unseen_iff`.
-/
namespace Receipt

/-- The text that a value is printed as. -/
def Value.asText (v : Value) : Value := .text v.printed

namespace Template

open Text

/-- Values that no operator tells from their texts, whatever comes behind. -/
inductive Kindless : Value → Prop
  | null : Kindless .null
  | missing : Kindless .missing
  | bool (b : Bool) : Kindless (.bool b)
  | text (s : String) : Kindless (.text s)

namespace Operator

variable [Host] {pattern v : Value} {arg : Option String} {w : Int} {text : String}

/-- What is printed of the value that an operator leaves. -/
def shows (op : Operator) (v : Value) (arg : Option String) : Except Error String :=
  op.apply v arg >>= textOf

omit [Host] in
theorem asText_of_print (htext : v.print = .ok text) : v.asText = .text text :=
  congrArg Value.text (Value.print_eq_ok_iff.1 htext).2

/-- What an empty value is replaced with. -/
def replacement (arg : Option String) : Value := standIn (arg.map String.toList)

omit [Host] in
theorem exists_replacement_print (arg : Option String) :
    ∃ s, (replacement arg).print = .ok s := by
  cases arg <;> exact ⟨_, rfl⟩

theorem default_unresolved (path : String) (arg : Option String) :
    default.apply (.unresolved path) arg = .ok (replacement arg) := rfl

theorem default_of_empty (h : v.print = .ok "") : default.apply v arg = .ok (replacement arg) :=
  applyDefault_of_print h _

theorem default_of_print (htext : v.print = .ok text) (hne : text ≠ "")
    (hkind : ∀ path, v ≠ .unresolved path) : default.apply v arg = .ok v := by
  rw [apply]
  unfold applyDefault
  split
  · exact (hne (Except.ok.inj htext).symm).elim
  · exact (hne (Except.ok.inj htext).symm).elim
  · next path => exact (hkind path rfl).elim
  · rw [textOf, htext]
    exact congrArg Except.ok (if_neg hne)

/-- Nothing is added to a text that is wide enough. -/
theorem pad_of_le (left : Bool) (hv : v ≠ .null) (hwidth : HasWidth arg w)
    (htext : v.print = .ok text) (hle : w ≤ text.length) :
    (pad left).apply v arg = .ok v.asText := by
  have hwide : w.toNat ≤ text.toList.length := by
    rw [String.length_toList]
    omega
  rw [pad_filledTo left hv hwidth htext (.inl hwide), filledTo_of_le left _ hwide,
    String.ofList_toList, asText_of_print htext]

theorem pad_null (left : Bool) (hwidth : HasWidth arg w) :
    (pad left).apply .null arg = .ok .null := by
  rw [← argumentWidth_eq_some_iff] at hwidth
  unfold apply applyPad
  simp only [hwidth]

omit [Host] in
theorem replacement_eq_text {path : String} (hne : path ≠ "")
    (h : (replacement arg).printed = path) : replacement arg = .text path := by
  cases arg with
  | none => exact (hne h.symm).elim
  | some arg => exact congrArg Value.text h

/-- An operator with an argument that has no width to read leaves all values alone, and one that has
a width looks at nothing but the text. -/
def ReadsText (op : Operator) (arg : Option String) : Prop :=
  (∀ v, op.apply v arg = .ok v) ∨
    ∀ u v, u ≠ .null → v ≠ .null → u.print = v.print → op.apply u arg = op.apply v arg

theorem readsText_of_width {op : Operator}
    (hrefused : ∀ e, argumentWidth (argumentParts (arg.map String.toList)) = .error e →
      ∀ v, op.apply v arg = .error e)
    (hnone : argumentWidth (argumentParts (arg.map String.toList)) = .ok none →
      ∀ v, op.apply v arg = .ok v)
    (hwidth : ∀ w, HasWidth arg w → ∀ u v, u ≠ .null → v ≠ .null → u.print = v.print →
      op.apply u arg = op.apply v arg) : op.ReadsText arg := by
  cases hread : argumentWidth (argumentParts (arg.map String.toList)) with
  | error e =>
      right
      intro u v _ _ _
      rw [hrefused e hread u, hrefused e hread v]
  | ok width =>
      cases width with
      | none => exact .inl (hnone hread)
      | some w => exact .inr (hwidth w (argumentWidth_eq_some_iff.1 hread))

theorem pad_readsText (left : Bool) (arg : Option String) : (pad left).ReadsText arg := by
  apply readsText_of_width
  · intro e hread v
    unfold apply applyPad
    simp only [hread]
  · intro hread v
    unfold apply applyPad
    simp only [hread]
  · intro w hw u v hu hv hprint
    rw [apply_pad left hu hw, apply_pad left hv hw, textOf, textOf, hprint]

theorem fit_readsText (arg : Option String) : fit.ReadsText arg := by
  apply readsText_of_width
  · intro e hread v
    unfold apply applyFit
    simp only [hread]
  · intro hread v
    unfold apply applyFit
    simp only [hread]
  · intro w hw u v hu hv hprint
    rw [apply_fit hu hw, apply_fit hv hw, textOf, textOf, hprint]

/-! ### Moments -/

theorem format_unread (hfits : v.fits = true)
    (h : ∀ date clock east?, ¬ ReadAs v date clock east?) :
    (format pattern).apply v arg = .ok v := by
  rcases format_cases pattern v arg with ⟨w, hok, hformatted⟩ | ⟨e, herror, hrefused⟩
  · rw [hok]
    cases hformatted with
    | other _ | unread _ _ _ => rfl
    | printed _ hread _ _ => exact (h _ _ _ hread).elim
  · cases hrefused with
    | notLocal _ hread _ | noPattern _ hread _ _ => exact (h _ _ _ hread).elim
    | untold _ _ hlong =>
        rw [hfits] at hlong
        cases hlong

/-- A value stays what it is, or is replaced with a text. -/
theorem format_eq_ok {u : Value} (h : (format pattern).apply v arg = .ok u) :
    u = v ∨ ∃ s, u = .text s := by
  rcases format_cases pattern v arg with ⟨w, hok, hformatted⟩ | ⟨e, herror, -⟩
  · cases hok.symm.trans h
    cases hformatted with
    | other _ | unread _ _ _ => exact .inl rfl
    | printed _ _ _ _ => exact .inr ⟨_, rfl⟩
  · cases herror.symm.trans h

/-- What is left of a value that can be printed can be printed too. -/
theorem exists_print_of_format {u : Value} (htext : v.print = .ok text)
    (h : (format pattern).apply v arg = .ok u) : ∃ s, u.print = .ok s := by
  rcases format_eq_ok h with rfl | ⟨s, rfl⟩
  · exact ⟨text, htext⟩
  · exact ⟨s, rfl⟩

theorem format_asText_of_kindless (h : Kindless v) :
    (format pattern).shows v.asText arg = (format pattern).shows v arg := by
  cases h with
  | null | missing =>
      rw [shows, shows, format_of_not_truthy rfl, format_of_not_truthy rfl]
      rfl
  | bool b =>
      have hvalue : ∀ date clock east?, ¬ ReadAs (.bool b) date clock east? := nofun
      have htext : ∀ date clock east?, ¬ ReadAs (Value.bool b).asText date clock east? := by
        intro date clock east? hread
        cases hread with
        | text hdigit _ => cases b <;> exact absurd hdigit (by decide)
      rw [shows, shows, format_unread rfl hvalue, format_unread rfl htext]
      rfl
  | text s => rfl

/-- An operator makes the same of a value and of its text, or leaves both alone. -/
def Alike (op : Operator) (v : Value) (arg : Option String) : Prop :=
  op.apply v.asText arg = op.apply v arg ∨
    op.apply v arg = .ok v ∧ op.apply v.asText arg = .ok v.asText

theorem alike_of_readsText {op : Operator} {arg : Option String} (h : op.ReadsText arg)
    (hv : v ≠ .null) (htext : v.print = .ok text) : Alike op v arg := by
  rcases h with hall | hreads
  · exact .inr ⟨hall v, hall v.asText⟩
  · refine .inl (hreads v.asText v nofun hv ?_)
    rw [htext, asText_of_print htext, Value.print_text]

theorem alike_default_or (htext : v.print = .ok text) (arg : Option String) :
    Alike default v arg ∨
      ∃ path, v = .unresolved path ∧ path ≠ "" ∧ (replacement arg).printed ≠ path := by
  have hprint : v.asText.print = .ok text := by rw [asText_of_print htext, Value.print_text]
  by_cases hempty : text = ""
  · subst hempty
    left
    left
    rw [default_of_empty htext, default_of_empty hprint]
  · have hsame : default.apply v.asText arg = .ok v.asText :=
      default_of_print hprint hempty nofun
    by_cases hkind : ∃ path, v = .unresolved path
    · obtain ⟨path, rfl⟩ := hkind
      cases htext
      by_cases hreplaced : (replacement arg).printed = path
      · left
        left
        rw [hsame, default_unresolved, replacement_eq_text hempty hreplaced]
        rfl
      · exact .inr ⟨path, rfl, hempty, hreplaced⟩
    · left
      right
      exact ⟨default_of_print htext hempty (not_exists.1 hkind), hsame⟩

/-- Where the same is printed, what comes out is the same, or the value and its text. -/
theorem alike_format {arg : Option String} (htext : v.print = .ok text)
    (h : (format pattern).shows v.asText arg = (format pattern).shows v arg) :
    Alike (format pattern) v arg := by
  have hprint : v.asText.print = .ok text := by rw [asText_of_print htext, Value.print_text]
  rw [shows, shows] at h
  cases hvalue : (format pattern).apply v arg with
  | error e =>
      rw [hvalue] at h
      left
      rcases bind_eq_error h with herror | ⟨y, hy, herror⟩
      · rw [herror, hvalue]
      · obtain ⟨s, hs⟩ := exists_print_of_format hprint hy
        rw [textOf, hs] at herror
        cases herror
  | ok x =>
      obtain ⟨s, hs⟩ := exists_print_of_format htext hvalue
      have hshown : (format pattern).apply v.asText arg >>= textOf = .ok s := by
        rw [h, hvalue]
        show textOf x = _
        rw [textOf, hs]
        rfl
      obtain ⟨y, hy, hprinted⟩ := bind_eq_ok hshown
      -- Only texts come out of a text, so what is printed says which one it is.
      have hsame : y = x.asText := by
        rw [asText_of_print hs]
        have hys : y.printed = s := (Value.print_eq_ok_iff.1 (mapError_eq_ok hprinted)).2
        rcases format_eq_ok hy with rfl | ⟨t, rfl⟩
        · exact congrArg Value.text hys
        · exact congrArg Value.text hys
      rcases format_eq_ok hvalue with rfl | ⟨t, rfl⟩
      · right
        exact ⟨hvalue, hsame ▸ hy⟩
      · left
        rw [hvalue, hy, hsame]
        rfl

end Operator

namespace Operators

variable [Host] {pattern u v : Value} {operation : Operation} {before rest part : List Operation}
  {text : String}

/-- What is printed of a value behind some operations. -/
def rendered (ops : Operators) (v : Value) (operations : List Operation) : Except Error String :=
  ops.run v operations >>= textOf

/-- Operations come to one that makes something else of a value than of its text, before both are
changed: an unresolved path gets another text by `default`, or a moment is read from only one of the
two, or not the same. -/
inductive Tells (pattern u : Value) : List Operation → Prop
  | default {path : String} {arg : Option String} {rest : List Operation} :
      u = .unresolved path → path ≠ "" → (Operator.replacement arg).printed ≠ path →
      Tells pattern u (("default", arg) :: rest)
  | format {arg : Option String} {rest : List Operation} :
      (Operator.format pattern).shows u.asText arg ≠ (Operator.format pattern).shows u arg →
      Tells pattern u (("format", arg) :: rest)
  | later {operation : Operation} {rest : List Operation} :
      (builtin pattern).applyOne u operation = .ok u →
      (builtin pattern).applyOne u.asText operation = .ok u.asText →
      Tells pattern u rest → Tells pattern u (operation :: rest)

theorem Tells.append (h : Tells pattern u part) (rest : List Operation) :
    Tells pattern u (part ++ rest) := by
  induction h with
  | default hkind hne hother => exact .default hkind hne hother
  | format hother => exact .format hother
  | later hvalue htext _ ih => exact .later hvalue htext ih

theorem not_tells_of_kindless (h : Kindless u) : ¬ Tells pattern u rest := by
  intro htells
  induction htells with
  | default hkind _ _ =>
      rw [hkind] at h
      cases h
  | format hother => exact hother (Operator.format_asText_of_kindless h)
  | later _ _ _ ih => exact ih

/-- Behind an operation that only looks at the text and changes the value, no kind is left to tell. -/
theorem not_tells_cons (hdefault : operation.1 ≠ "default") (hformat : operation.1 ≠ "format")
    (hchanged : (builtin pattern).applyOne u operation ≠ .ok u) :
    ¬ Tells pattern u (operation :: rest) := by
  intro htells
  generalize hoperations : operation :: rest = operations at htells
  cases htells with
  | default _ _ _ =>
      cases hoperations
      exact hdefault rfl
  | format _ =>
      cases hoperations
      exact hformat rfl
  | later hvalue _ _ =>
      cases hoperations
      exact hchanged hvalue

theorem run_append (ops : Operators) (v : Value) (before rest : List Operation) :
    ops.run v (before ++ rest) = ops.run v before >>= fun u => ops.run u rest := by
  rw [run, List.foldlM_append]
  rfl

omit [Host] in
/-- The operators that every set starts with, by name. -/
theorem get?_builtin {name : String} {op : Operator} (h : (builtin pattern).get? name = some op) :
    name = "default" ∧ op = .default ∨ (∃ left, op = .pad left) ∨ op = .fit ∨
      name = "format" ∧ op = .format pattern := by
  have hentry := mem_of_get? h
  simp only [builtin, List.mem_cons, Prod.mk.injEq, List.not_mem_nil, or_false] at hentry
  rcases hentry with ⟨rfl, rfl⟩ | ⟨-, rfl⟩ | ⟨-, rfl⟩ | ⟨-, rfl⟩ | ⟨rfl, rfl⟩
  · exact .inl ⟨rfl, rfl⟩
  · exact .inr (.inl ⟨true, rfl⟩)
  · exact .inr (.inl ⟨false, rfl⟩)
  · exact .inr (.inr (.inl rfl))
  · exact .inr (.inr (.inr ⟨rfl, rfl⟩))

/-- One operation makes the same of a value and of its text, or leaves both alone, or tells them
from each other. -/
theorem applyOne_asText (hu : u ≠ .null) (htext : u.print = .ok text) (operation : Operation) :
    (builtin pattern).applyOne u.asText operation = (builtin pattern).applyOne u operation ∨
      ((builtin pattern).applyOne u operation = .ok u ∧
        (builtin pattern).applyOne u.asText operation = .ok u.asText) ∨
      ∀ rest, Tells pattern u (operation :: rest) := by
  obtain ⟨name, arg⟩ := operation
  unfold applyOne
  cases hop : (builtin pattern).get? name with
  | none => exact .inr (.inl ⟨rfl, rfl⟩)
  | some op =>
      have hcases : op.Alike u arg ∨ ∀ rest, Tells pattern u ((name, arg) :: rest) := by
        rcases get?_builtin hop with ⟨rfl, rfl⟩ | ⟨left, rfl⟩ | rfl | ⟨rfl, rfl⟩
        · rcases Operator.alike_default_or htext arg with halike | ⟨path, hkind, hne, hother⟩
          · exact .inl halike
          · exact .inr fun rest => .default hkind hne hother
        · exact .inl (Operator.alike_of_readsText (Operator.pad_readsText left arg) hu htext)
        · exact .inl (Operator.alike_of_readsText (Operator.fit_readsText arg) hu htext)
        · by_cases hsame : (Operator.format pattern).shows u.asText arg =
              (Operator.format pattern).shows u arg
          · exact .inl (Operator.alike_format htext hsame)
          · exact .inr fun rest => .format hsame
      rcases hcases with (hequal | hboth) | htells
      · exact .inl hequal
      · exact .inr (.inl hboth)
      · exact .inr (.inr htells)

/-- A pipeline that does not tell a value from its text prints the same of both. -/
theorem rendered_asText (hu : u ≠ .null) (htext : u.print = .ok text) (h : ¬ Tells pattern u rest) :
    (builtin pattern).rendered u.asText rest = (builtin pattern).rendered u rest := by
  -- The value and its text stay as they are up to the operation that makes the same of both.
  induction rest with
  | nil =>
      show textOf u.asText = textOf u
      rw [Operator.asText_of_print htext, textOf, textOf, htext]
      rfl
  | cons operation rest ih =>
      rw [rendered, rendered, run_cons, run_cons]
      rcases applyOne_asText hu htext operation with hequal | ⟨hvalue, hsame⟩ | htells
      · rw [hequal]
      · rw [hvalue, hsame]
        exact ih fun hlater => h (.later hvalue hsame hlater)
      · exact (h (htells rest)).elim

/-- One that does has a beginning that prints something else of the value than of its text. -/
theorem Tells.exists_rendered_ne (h : Tells pattern u rest) :
    ∃ part, part <+: rest ∧
      (builtin pattern).rendered u.asText part ≠ (builtin pattern).rendered u part := by
  induction h with
  | @default path arg rest hkind hne hother =>
      refine ⟨[("default", arg)], List.prefix_append [_] rest, ?_⟩
      have htext : (builtin pattern).rendered u.asText [("default", arg)] = .ok path := by
        rw [hkind]
        show (Operator.default.apply (Value.text path) arg >>= pure) >>= textOf = _
        rw [Operator.default_of_print (Value.print_text path) hne nofun]
        rfl
      have hvalue : (builtin pattern).rendered u [("default", arg)] =
          .ok (Operator.replacement arg).printed := by
        obtain ⟨s, hs⟩ := Operator.exists_replacement_print arg
        rw [hkind]
        show (Operator.default.apply (.unresolved path) arg >>= pure) >>= textOf = _
        rw [Operator.default_unresolved]
        show textOf (Operator.replacement arg) = _
        rw [textOf, hs, (Value.print_eq_ok_iff.1 hs).2]
        rfl
      rw [htext, hvalue]
      exact fun hequal => hother (Except.ok.inj hequal).symm
  | @format arg rest hother =>
      refine ⟨[("format", arg)], List.prefix_append [_] rest, ?_⟩
      have hone : ∀ v, (builtin pattern).rendered v [("format", arg)] =
          (Operator.format pattern).shows v arg := by
        intro v
        show ((Operator.format pattern).apply v arg >>= pure) >>= textOf = _
        rw [bind_pure, Operator.shows]
      rw [hone, hone]
      exact hother
  | @later operation rest hvalue htext _ ih =>
      obtain ⟨part, hpart, hne⟩ := ih
      refine ⟨operation :: part, List.cons_prefix_cons.2 ⟨rfl, hpart⟩, ?_⟩
      rw [rendered, rendered, run_cons, run_cons, hvalue, htext]
      exact hne

theorem rendered_append (hbefore : (builtin pattern).run v before = .ok u)
    (rest : List Operation) :
    (builtin pattern).rendered v (before ++ rest) = (builtin pattern).rendered u rest := by
  rw [rendered, run_append, hbefore]
  rfl

section padding
variable {left : Bool} {arg : Option String} {w : Int}

/-- What is printed behind a pad that adds nothing is printed of the text of the value. -/
theorem rendered_pad (hwidth : Operator.HasWidth arg w) (hu : u ≠ .null)
    (htext : u.print = .ok text) (hle : w ≤ text.length) (rest : List Operation) :
    (builtin pattern).rendered u ((padName left, arg) :: rest) =
      (builtin pattern).rendered u.asText rest := by
  rw [rendered, run_cons, applyOne_padName, Operator.pad_of_le left hu hwidth htext hle]
  rfl

theorem rendered_pad_null (hwidth : Operator.HasWidth arg w) (rest : List Operation) :
    (builtin pattern).rendered .null ((padName left, arg) :: rest) =
      (builtin pattern).rendered .null rest := by
  rw [rendered, run_cons, applyOne_padName, Operator.pad_null left hwidth]
  rfl

/-- A pad that adds nothing is seen in what is printed behind it, or behind a beginning of what
follows, exactly if the operations that follow tell the value from its text. It is never seen where
the value is null, missing, a truth value or a text. -/
theorem pad_unseen_iff (hwidth : Operator.HasWidth arg w)
    (hbefore : (builtin pattern).run v before = .ok u)
    (henough : u = .null ∨ ∃ text, u.print = .ok text ∧ w ≤ text.length) (rest : List Operation) :
    ((∀ part, part <+: rest →
      (builtin pattern).rendered v (before ++ (padName left, arg) :: part) =
        (builtin pattern).rendered v (before ++ part)) ↔ ¬ Tells pattern u rest) ∧
      (Kindless u → ¬ Tells pattern u rest) := by
  refine ⟨?_, not_tells_of_kindless⟩
  simp only [rendered_append hbefore]
  by_cases hu : u = .null
  · -- Null stays null, and its text is never there to be compared with.
    subst hu
    simp only [rendered_pad_null hwidth, implies_true, true_iff]
    exact not_tells_of_kindless .null
  · obtain ⟨text, htext, hle⟩ := henough.resolve_left hu
    simp only [rendered_pad hwidth hu htext hle]
    constructor
    · intro hall htells
      obtain ⟨part, hpart, hne⟩ := htells.exists_rendered_ne
      exact hne (hall part hpart)
    · intro h part hpart
      obtain ⟨more, rfl⟩ := hpart
      exact rendered_asText hu htext fun htells => h (htells.append more)

omit [Host] in
theorem hasWidth_five : Operator.HasWidth (some "5") 5 :=
  Operator.argumentWidth_eq_some_iff.1 (by rfl)

omit [Host] in
/-- The text of an unresolved path is fitted before the path would be replaced. -/
theorem pad_unseen_iff_fitted :
    letI := Host.standard 2025
    let ops := builtin (.text "%x %X")
    let rest := [("fit", some "8,right"), ("default", some "0.00")]
    ops.rendered (.unresolved "total") (("padLeft", some "5") :: rest) =
      ops.rendered (.unresolved "total") rest := by
  intro ops rest
  let host := Host.standard 2025
  have hfitted : ops.applyOne (.unresolved "total") ("fit", some "8,right") =
      .ok (.text "   total") := by
    rfl
  have hnot : ¬ Tells (.text "%x %X") (.unresolved "total") rest := by
    refine not_tells_cons (by decide) (by decide) fun hsame => ?_
    cases hfitted.symm.trans hsame
  have hbefore : ops.run (.unresolved "total") [] = .ok (.unresolved "total") := rfl
  have hsame : ops.rendered (.unresolved "total") ([] ++ (padName true, some "5") :: rest) =
      ops.rendered (.unresolved "total") ([] ++ rest) :=
    (pad_unseen_iff hasWidth_five hbefore (.inr ⟨"total", rfl, by decide⟩) rest).1.2 hnot rest
      (List.prefix_refl rest)
  exact hsame

omit [Host] in
/-- An unresolved path is replaced, and the text that a pad makes of it is not. -/
theorem exists_pad_seen :
    letI := Host.standard 2025
    ¬ ∀ (pattern v u : Value) (before rest : List Operation) (left : Bool) (arg : Option String)
      (w : Int), Operator.HasWidth arg w → (builtin pattern).run v before = .ok u →
      (u = .null ∨ ∃ text, u.print = .ok text ∧ w ≤ text.length) →
      (builtin pattern).rendered v (before ++ (padName left, arg) :: rest) =
        (builtin pattern).rendered v (before ++ rest) := by
  let host := Host.standard 2025
  intro hall
  have hsame := hall (.text "%x %X") (.unresolved "total") _ [] [("default", some "0.00")] true
    (some "5") 5 hasWidth_five rfl (.inr ⟨"total", rfl, by decide⟩)
  have hpadded : (builtin (.text "%x %X")).rendered (.unresolved "total")
      ([] ++ (padName true, some "5") :: [("default", some "0.00")]) = .ok "total" := by
    rfl
  have hreplaced : (builtin (.text "%x %X")).rendered (.unresolved "total")
      ([] ++ [("default", some "0.00")]) = .ok "0.00" := by
    rfl
  rw [hpadded, hreplaced] at hsame
  exact absurd (Except.ok.inj hsame) (by decide)

end padding

end Operators
end Template
end Receipt
