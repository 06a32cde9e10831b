import Receipt.Proofs.Template.Operations
import Receipt.Proofs.Template.Width

/-!
# Quoted literals in tokens

What stands between quotes in an argument is what its operator works with. A quote at the end keeps
the blanks before it from being cut off, `trim_quoted`, and only one pair of quotes is taken away,
`unquote_quoted`. So a quoted text is printed as it is written, whether it stands for an empty value
or fills up a text: `Expander.expand_quoted`.
-/
namespace Receipt.Template

open Text

/-- The two characters that a literal may stand between. -/
def IsQuote (q : Char) : Prop := q = '\'' ∨ q = '"'

def quoted (q : Char) (cs : List Char) : List Char := q :: (cs ++ [q])

section literals
variable {q : Char}

theorem IsQuote.isBlank (h : IsQuote q) : isBlank q = false := by
  rcases h with rfl | rfl <;> decide

theorem IsQuote.isArgumentChar (h : IsQuote q) : isArgumentChar q = true := by
  rcases h with rfl | rfl <;> decide

theorem IsQuote.ne_comma (h : IsQuote q) : q ≠ ',' := by
  rcases h with rfl | rfl <;> decide

theorem forall_mem_quoted {p : Char → Prop} {cs : List Char} (hq : p q) (hcs : ∀ c ∈ cs, p c) :
    ∀ c ∈ quoted q cs, p c := by
  intro c hc
  rw [quoted, List.mem_cons, List.mem_append, List.mem_singleton] at hc
  rcases hc with rfl | hc | rfl
  · exact hq
  · exact hcs c hc
  · exact hq

theorem unquote_quoted (hq : IsQuote q) (cs : List Char) : unquote (quoted q cs) = cs := by
  have hpair : (q = '\'' ∨ q = '"') ∧ (cs ++ [q]).getLast? = some q :=
    ⟨hq, List.getLast?_concat⟩
  rw [quoted, unquote, if_pos hpair, List.dropLast_concat]

/-- A text that ends in a quote loses nothing at its end. -/
theorem trimRight_append_quoted (hq : IsQuote q) (before cs : List Char) :
    trimRight (before ++ quoted q cs) = before ++ quoted q cs := by
  have hend : before ++ quoted q cs = (before ++ q :: cs) ++ [q] := by simp [quoted]
  rw [hend, trimRight_concat hq.isBlank]

theorem trim_quoted (hq : IsQuote q) (cs : List Char) : trim (quoted q cs) = quoted q cs := by
  have hstop : Stops isBlank (quoted q cs) := stops_cons hq.isBlank _
  rw [trim_of_stops hstop]
  exact trimRight_append_quoted hq [] cs

/-- Digits and a quoted text are two parts of an argument. -/
theorem argumentParts_quoted (hq : IsQuote q) {digits fill : List Char} {n : Nat}
    (hdigits : Number.Spells digits n) (hne : digits ≠ []) (hfill : ',' ∉ fill) :
    argumentParts (some (digits ++ ',' :: quoted q fill)) = [digits, fill] := by
  have hcomma : ',' ∉ quoted q fill := by
    intro hmem
    exact forall_mem_quoted (p := (· ≠ ',')) hq.ne_comma (fun c hc h => hfill (h ▸ hc)) _ hmem rfl
  rw [argumentParts, splitOn_append, splitOn_eq_singleton (hdigits.not_mem (by decide)),
    splitOn_eq_singleton hcomma]
  simp only [List.map_cons, List.map_nil, List.singleton_append, trim_word hne hdigits.isBlank,
    unquote_digits hdigits.all_digits, trim_quoted hq, unquote_quoted hq]

end literals

/-- A path leads nowhere, to null, or to a value that prints as nothing. -/
def LeadsToNothing (data : Value) (path : String) : Prop :=
  resolve data path = .missing ∨ resolve data path = .null ∨ (resolve data path).print = .ok ""

section operators
variable {data : Value} {path : String} {q : Char}

theorem startValue_of_ne_missing (h : resolve data path ≠ .missing) :
    startValue data path = resolve data path := by
  unfold startValue
  split
  · next hmissing => exact (h hmissing).elim
  · rfl

theorem applyDefault_of_print {v : Value} (h : v.print = .ok "") (arg : Option (List Char)) :
    Operator.applyDefault v arg = .ok (Operator.standIn arg) := by
  unfold Operator.applyDefault
  split
  · rfl
  · rfl
  · rfl
  · rw [textOf, h]
    rfl

theorem applyDefault_startValue (h : LeadsToNothing data path) (arg : Option (List Char)) :
    Operator.applyDefault (startValue data path) arg = .ok (Operator.standIn arg) := by
  by_cases hmissing : resolve data path = .missing
  · rw [startValue, hmissing]
    rfl
  · rw [startValue_of_ne_missing hmissing]
    rcases h with hmissing' | hnull | hprint
    · exact (hmissing hmissing').elim
    · rw [hnull]
      rfl
    · exact applyDefault_of_print hprint arg

/-- The argument of a width in digits and a quoted filling. -/
def widthAndFill (q : Char) (digits fill : List Char) : List Char := digits ++ ',' :: quoted q fill

namespace Operator
variable {digits fill : List Char} {width : Nat}

theorem hasNumber_quoted (hq : IsQuote q) (hdigits : Number.Spells digits width)
    (hne : digits ≠ []) (hcomma : ',' ∉ fill) :
    argumentParts ((some (String.ofList (widthAndFill q digits fill))).map String.toList) =
      [digits, fill] := by
  rw [Option.map_some, String.toList_ofList, widthAndFill,
    argumentParts_quoted hq hdigits hne hcomma]

theorem hasWidth_quoted (hq : IsQuote q) (hdigits : Number.Spells digits width)
    (hne : digits ≠ []) (hcomma : ',' ∉ fill) (hlength : digits.length ≤ Number.digitLimit) :
    HasWidth (some (String.ofList (widthAndFill q digits fill))) width :=
  ⟨digits, [fill], hasNumber_quoted hq hdigits hne hcomma, digits.length, hlength,
    Number.leads_of_spells hdigits hne⟩

theorem hasLongWidth_quoted (hq : IsQuote q) (hdigits : Number.Spells digits width)
    (hne : digits ≠ []) (hcomma : ',' ∉ fill) (hlength : Number.digitLimit < digits.length) :
    HasLongWidth (some (String.ofList (widthAndFill q digits fill))) digits.length :=
  ⟨digits, [fill], hasNumber_quoted hq hdigits hne hcomma, hlength, width,
    Number.leads_of_spells hdigits hne⟩

theorem fillOf_secondPart_quoted (hq : IsQuote q) (hdigits : Number.Spells digits width)
    (hne : digits ≠ []) (hcomma : ',' ∉ fill) (hfill : fill ≠ []) :
    fillOf (secondPart (some (String.ofList (widthAndFill q digits fill)))) = fill := by
  rw [secondPart, hasNumber_quoted hq hdigits hne hcomma]
  cases fill with
  | nil => exact (hfill rfl).elim
  | cons c cs => rfl

end Operator

end operators

/-- A path as it is written in a token: word characters and points. -/
def IsPath (path : String) : Prop := path ≠ "" ∧ ∀ c ∈ path.toList, isPathChar c = true

/-- The name of the operator that fills up on one side. -/
def padName (left : Bool) : String := if left then "padLeft" else "padRight"

section applying
variable [Host]

theorem applyOne_padName (pattern : Value) (left : Bool) (v : Value) (arg : Option String) :
    (Operators.builtin pattern).applyOne v (padName left, arg) = (Operator.pad left).apply v arg := by
  cases left <;> rfl

theorem applyOne_default (pattern v : Value) (arg : Option String) :
    (Operators.builtin pattern).applyOne v ("default", arg) =
      Operator.applyDefault v (arg.map String.toList) :=
  rfl

end applying

/-- A token with one operator, without blanks anywhere. -/
def oneCallToken (path name : String) (arg : List Char) : Token :=
  ⟨[], path.toList, [⟨[], [], name.toList, some arg⟩], []⟩

/-- A template of this token alone. -/
def oneCall (path name : String) (arg : List Char) : String :=
  "\x7b\x7b" ++ path ++ "|" ++ name ++ ":" ++ String.ofList arg ++ "\x7d\x7d"

theorem toList_oneCall (path name : String) (arg : List Char) :
    (oneCall path name arg).toList = (oneCallToken path name arg).text := by
  simp [oneCall, oneCallToken, Token.text, Token.suffix, Call.text, Call.argText]

namespace Expander
variable [Host] {data : Value} {path : String} {q : Char}

section call
variable {x : Expander} {name : String} {arg : List Char} (hpath : IsPath path)
  (hname : name ≠ "" ∧ name.toList.all isWord = true)
  (harg : arg ≠ [] ∧ ∀ c ∈ arg, isArgumentChar c = true) (htrim : trimRight arg = arg)
include hpath hname harg

omit [Host] in
theorem wellFormed_oneCall : (oneCallToken path name arg).WellFormed := by
  have hcall : Call.WellFormed ⟨[], [], name.toList, some arg⟩ := by
    refine ⟨nofun, nofun, ⟨by simpa using hname.1, List.all_eq_true.1 hname.2⟩, ?_⟩
    rintro _ ⟨⟩
    exact harg
  exact ⟨nofun, ⟨by simpa [oneCallToken] using hpath.1, hpath.2⟩,
    List.forall_mem_singleton.2 hcall, nofun⟩

theorem expand_oneCall : x.expand (.text (oneCall path name arg)) data =
    (x.tokenText data (oneCallToken path name arg)).map String.ofList := by
  have htoken := wellFormed_oneCall hpath hname harg
  have hgreedy : Greedy (oneCallToken path name arg).calls (oneCallToken path name arg).trail :=
    ⟨fun _ _ => stops_cons (by decide) _, trivial⟩
  have hscan : Token.scan? (oneCallToken path name arg).text =
      some (oneCallToken path name arg, []) := by
    simpa using Token.scan?_text htoken hgreedy []
  rw [expand_text, toList_oneCall, expandText_of_scan? hscan, expandText_nil]
  cases x.tokenText data (oneCallToken path name arg) with
  | error e => rfl
  | ok text =>
      show Except.ok (String.ofList (text ++ [])) = _
      rw [List.append_nil]
      rfl

include htrim

omit [Host] in
theorem parseOperations_oneCall : parseOperations (oneCallToken path name arg).suffix =
    [(name, some (String.ofList arg))] := by
  rw [parseOperations_suffix (wellFormed_oneCall hpath hname harg).calls]
  simp [oneCallToken, Call.operation, htrim]

/-- What one operator makes of the value at a path is printed, if it prints as something. -/
theorem expand_oneCall_of_ok {v : Value} {text : String}
    (hv : x.operators.applyOne (startValue data path) (name, some (String.ofList arg)) = .ok v)
    (hprint : v.print = .ok text) (hne : text ≠ "") :
    x.expand (.text (oneCall path name arg)) data = .ok text := by
  have hkept : ¬ (text.toList = [] ∧ x.policy = .keepToken) := by simp [hne]
  have htext : x.tokenText data (oneCallToken path name arg) = .ok text.toList := by
    rw [tokenText, parseOperations_oneCall hpath hname harg htrim, Operators.run,
      List.foldlM_cons, oneCallToken, String.ofList_toList, hv]
    show ((textOf v).bind _ : Except Error (List Char)) = _
    rw [textOf, hprint]
    exact congrArg Except.ok (if_neg hkept)
  rw [expand_oneCall hpath hname harg, htext]
  exact congrArg Except.ok String.ofList_toList

/-- Where the operator fails, so does the template. -/
theorem expand_oneCall_of_error {e : Error}
    (hv : x.operators.applyOne (startValue data path) (name, some (String.ofList arg)) = .error e) :
    x.expand (.text (oneCall path name arg)) data = .error e := by
  have htext : x.tokenText data (oneCallToken path name arg) = .error e := by
    rw [tokenText, parseOperations_oneCall hpath hname harg htrim, Operators.run,
      List.foldlM_cons, oneCallToken, String.ofList_toList, hv]
    rfl
  rw [expand_oneCall hpath hname harg, htext]
  rfl

end call

theorem expand_default_quoted (pattern : Value) (policy : EmptyPolicy) (hpath : IsPath path)
    (hq : IsQuote q) {literal : String} (hne : literal ≠ "")
    (hchars : ∀ c ∈ literal.toList, isArgumentChar c = true) (hnothing : LeadsToNothing data path) :
    Expander.expand ⟨Operators.builtin pattern, policy⟩
      (.text (oneCall path "default" (quoted q literal.toList))) data = .ok literal := by
  have hv : (Operators.builtin pattern).applyOne (startValue data path)
      ("default", some (String.ofList (quoted q literal.toList))) = .ok (.text literal) := by
    rw [applyOne_default, applyDefault_startValue hnothing, Option.map_some, String.toList_ofList,
      Operator.standIn, trim_quoted hq, unquote_quoted hq, String.ofList_toList]
  have harg : quoted q literal.toList ≠ [] ∧
      ∀ c ∈ quoted q literal.toList, isArgumentChar c = true :=
    ⟨List.cons_ne_nil _ _, forall_mem_quoted hq.isArgumentChar hchars⟩
  exact expand_oneCall_of_ok hpath (by decide) harg (trimRight_append_quoted hq [] _) hv
    (Value.print_text literal) hne

section filling
variable {fill digits : List Char} {width : Nat} (hpath : IsPath path) (hq : IsQuote q)
  (hchars : ∀ c ∈ fill, isArgumentChar c = true) (hdigits : Number.Spells digits width)
  (hmissing : resolve data path ≠ .missing)

omit [Host] in
include hq hchars hdigits in
theorem isArgumentChar_widthAndFill :
    widthAndFill q digits fill ≠ [] ∧ ∀ c ∈ widthAndFill q digits fill, isArgumentChar c = true := by
  refine ⟨by simp [widthAndFill], fun c hc => ?_⟩
  rcases List.mem_append.1 hc with hc | hc
  · exact isArgumentChar_of_class (by decide) (by decide) (hdigits.all_digits c hc)
  · rcases List.mem_cons.1 hc with rfl | hc
    · decide
    · exact forall_mem_quoted hq.isArgumentChar hchars c hc

omit [Host] in
include hq in
theorem trimRight_widthAndFill :
    trimRight (widthAndFill q digits fill) = widthAndFill q digits fill := by
  have hend := trimRight_append_quoted hq (digits ++ [',']) fill
  rwa [List.append_assoc] at hend

omit [Host] in
theorem padName_isName (left : Bool) :
    padName left ≠ "" ∧ (padName left).toList.all isWord = true := by
  cases left <;> decide

include hpath hq hchars hdigits hmissing

/-- What is padded is printed, if it is not nothing. -/
theorem expand_pad_of_ok (pattern : Value) (policy : EmptyPolicy) (left : Bool) {text : String}
    (hv : (Operator.pad left).apply (resolve data path)
      (some (String.ofList (widthAndFill q digits fill))) = .ok (.text text)) (hne : text ≠ "") :
    Expander.expand ⟨Operators.builtin pattern, policy⟩
      (.text (oneCall path (padName left) (widthAndFill q digits fill))) data = .ok text := by
  refine expand_oneCall_of_ok hpath (padName_isName left)
    (isArgumentChar_widthAndFill hq hchars hdigits) (trimRight_widthAndFill hq) ?_
    (Value.print_text text) hne
  rw [applyOne_padName, startValue_of_ne_missing hmissing, hv]

theorem expand_pad_of_error (pattern : Value) (policy : EmptyPolicy) (left : Bool) {e : Error}
    (hv : (Operator.pad left).apply (resolve data path)
      (some (String.ofList (widthAndFill q digits fill))) = .error e) :
    Expander.expand ⟨Operators.builtin pattern, policy⟩
      (.text (oneCall path (padName left) (widthAndFill q digits fill))) data = .error e := by
  refine expand_oneCall_of_error hpath (padName_isName left)
    (isArgumentChar_widthAndFill hq hchars hdigits) (trimRight_widthAndFill hq) ?_
  rw [applyOne_padName, startValue_of_ne_missing hmissing, hv]

end filling

/-- A quoted literal is printed as it is written, by the operator that gives a text to a value
without any, and a quoted filling fills a text up to the width that stands before it: only the
quotes around it are left out. A value that cannot be printed is not filled up, nor is any if the
width has too many digits. -/
theorem expand_quoted (pattern : Value) (policy : EmptyPolicy) (data : Value) {path : String}
    (hpath : IsPath path) {q : Char} (hq : IsQuote q) :
    let x : Expander := ⟨Operators.builtin pattern, policy⟩
    (∀ literal : String, literal ≠ "" → (∀ c ∈ literal.toList, isArgumentChar c = true) →
      LeadsToNothing data path →
      x.expand (.text (oneCall path "default" (quoted q literal.toList))) data = .ok literal) ∧
    ∀ (left : Bool) (fill digits : List Char) (width : Nat), fill ≠ [] →
      (∀ c ∈ fill, isArgumentChar c = true) → ',' ∉ fill → Number.Spells digits width →
      width ≠ 0 → resolve data path ≠ .missing → resolve data path ≠ .null →
      let padded := x.expand (.text (oneCall path (padName left) (widthAndFill q digits fill))) data
      (digits.length ≤ Number.digitLimit →
        (∀ text, (resolve data path).print = .ok text → FitsMemory width fill text.toList →
          ∃ out, padded = .ok (String.ofList out) ∧ out = filledTo left width fill text.toList ∧
            out.length = max width text.length) ∧
        ∀ e, (resolve data path).print = .error e → padded = .error (.unwritable e)) ∧
      (Number.digitLimit < digits.length → padded = .error (.widthTooLong digits.length)) := by
  refine ⟨fun literal => expand_default_quoted pattern policy hpath hq, ?_⟩
  intro left fill digits width hfill hchars hcomma hdigits hwidth hmissing hnull padded
  have hne : digits ≠ [] := hdigits.ne_nil hwidth
  refine ⟨fun hlength => ?_, fun hlength => ?_⟩
  · have hhas := Operator.hasWidth_quoted hq hdigits hne hcomma hlength
    refine ⟨fun text htext hfits => ?_, fun e he => ?_⟩
    · have hfilling := Operator.fillOf_secondPart_quoted hq hdigits hne hcomma hfill
      have hv := Operator.pad_filledTo left hnull hhas htext (by rwa [hfilling])
      rw [hfilling, Int.toNat_natCast] at hv
      have hout := length_filledTo left width hfill text.toList
      have hsome : String.ofList (filledTo left width fill text.toList) ≠ "" := by
        intro hempty
        have hnil := congrArg String.length hempty
        rw [String.length_ofList, hout] at hnil
        exact hwidth (Nat.le_zero.1 (Nat.le_trans (Nat.le_max_left _ _) (Nat.le_of_eq hnil)))
      exact ⟨_, expand_pad_of_ok hpath hq hchars hdigits hmissing pattern policy left hv hsome, rfl,
        hout⟩
    · exact expand_pad_of_error hpath hq hchars hdigits hmissing pattern policy left
        (Operator.pad_unprinted left hnull hhas he)
  · exact expand_pad_of_error hpath hq hchars hdigits hmissing pattern policy left
      (Operator.pad_longWidth left _ (Operator.hasLongWidth_quoted hq hdigits hne hcomma hlength))

omit [Host] in
/-- Blanks at both ends, a colon, a comma, a brace and a quote in literals, at an empty text. -/
theorem expand_quoted_empty :
    letI := Host.standard 2025
    let x : Expander := ⟨Operators.builtin (.text "%x %X"), .keepToken⟩
    let data : Value := .map [(.text "a", .text "")]
    x.expand (.text "\x7b\x7ba|default:' it's \x7b: a, b '\x7d\x7d") data =
        .ok " it's \x7b: a, b " ∧
      x.expand (.text "\x7b\x7ba|padLeft:07,'- ''\x7d\x7d") data = .ok "- '- '-" ∧
      x.expand (.text "\x7b\x7ba|padRight:4,':\x7b '\x7d\x7d") data = .ok ":\x7b :" := by
  intro x data
  let host := Host.standard 2025
  have hpath : IsPath "a" := ⟨by decide, List.all_eq_true.1 (by decide)⟩
  obtain ⟨hdefault, hpad⟩ := expand_quoted (.text "%x %X") .keepToken data hpath (.inl rfl)
  have hseven : Number.Spells "07".toList 7 := ⟨List.all_eq_true.1 (by decide), by decide⟩
  have hfour : Number.Spells (toString 4).toList 4 := Number.spells_toString 4
  refine ⟨?_, ?_, ?_⟩
  · exact hdefault " it's \x7b: a, b " (by decide) (List.all_eq_true.1 (by decide))
      (.inr (.inr rfl))
  · obtain ⟨out, hout, rfl, -⟩ := ((hpad true "- '".toList "07".toList 7 (by decide)
      (List.all_eq_true.1 (by decide)) (by decide) hseven (by decide) nofun nofun).1 (by decide)).1
      "" rfl (.inr (by decide))
    exact hout
  · obtain ⟨out, hout, rfl, -⟩ := ((hpad false ":\x7b ".toList (toString 4).toList 4 (by decide)
      (List.all_eq_true.1 (by decide)) (by decide) hfour (by decide) nofun nofun).1 (by decide)).1
      "" rfl (.inr (by decide))
    exact hout

omit [Host] in
/-- A number with too many digits and a map with a date as a key are not filled up, and a width with
too many digits is not read. -/
theorem exists_expand_quoted_refused :
    letI := Host.standard 2025
    let x : Expander := ⟨Operators.builtin (.text "%x %X"), .keepToken⟩
    let padded (digits : List Char) (v : Value) : Except Error String :=
      x.expand (.text (oneCall "n" (padName true) (widthAndFill '\'' digits ['-'])))
        (.map [(.text "n", v)])
    (Number.Spells ['3'] 3 ∧ padded ['3'] leastLong = .error (.unwritable .tooLong) ∧
        padded ['3'] datedMap = .error (.unwritable .notJson)) ∧
      (Number.Spells longOne 1 ∧
        padded longOne (.text "x") = .error (.widthTooLong (Number.digitLimit + 1))) ∧
      ¬ ∀ v : Value, v ≠ .null → v ≠ .missing → ∃ out, padded ['3'] v = .ok out := by
  intro x padded
  let host := Host.standard 2025
  have hpath : IsPath "n" := ⟨by decide, List.all_eq_true.1 (by decide)⟩
  have hthree : Number.Spells ['3'] 3 := ⟨List.all_eq_true.1 (by decide), by decide⟩
  have hchars : ∀ c ∈ ['-'], isArgumentChar c = true := List.all_eq_true.1 (by decide)
  have hquote : IsQuote '\'' := .inl rfl
  have hfails : ∀ {digits : List Char} {n : Nat} {v : Value} {e : Error},
      Number.Spells digits n → v ≠ .missing →
      (Operator.pad true).apply v (some (String.ofList (widthAndFill '\'' digits ['-']))) = .error e →
      padded digits v = .error e := by
    intro digits n v e hdigits hmissing hv
    have hvalue : resolve (.map [(.text "n", v)]) "n" ≠ .missing := hmissing
    exact expand_pad_of_error hpath hquote hchars hdigits hvalue (.text "%x %X") .keepToken true hv
  have hhas : Operator.HasWidth (some (String.ofList (widthAndFill '\'' ['3'] ['-']))) 3 :=
    Operator.hasWidth_quoted hquote hthree (by decide) (by decide) (by decide)
  have hrefused : padded ['3'] leastLong = .error (.unwritable .tooLong) :=
    hfails hthree nofun
      (Operator.pad_unprinted (v := leastLong) true nofun hhas print_leastLong)
  have hdated : padded ['3'] datedMap = .error (.unwritable .notJson) :=
    hfails hthree nofun
      (Operator.pad_unprinted (v := datedMap) true nofun hhas print_datedMap)
  refine ⟨⟨hthree, hrefused, hdated⟩, ⟨spells_longOne, ?_⟩, fun hall => ?_⟩
  · have hmore : Number.digitLimit < longOne.length := by
      rw [length_longOne]
      exact Nat.lt_succ_self _
    have hlong : Operator.HasLongWidth
        (some (String.ofList (widthAndFill '\'' longOne ['-']))) longOne.length :=
      Operator.hasLongWidth_quoted hquote spells_longOne longOne_ne_nil (by decide) hmore
    rw [length_longOne] at hlong
    exact hfails (v := .text "x") spells_longOne nofun (Operator.pad_longWidth true _ hlong)
  · obtain ⟨out, hout⟩ := hall leastLong nofun nofun
    rw [hrefused] at hout
    cases hout

end Expander
end Receipt.Template
