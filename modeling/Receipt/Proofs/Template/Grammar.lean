import Receipt.Host.Standard
import Receipt.Proofs.Text.Run
import Receipt.Template.Expand

/-!
# Templates and the grammar of their tokens

`IsToken` is the grammar: a token is what its parts are written as, when each has its class. A text
may have several derivations, which differ in the blanks behind an argument, for these may belong to
the argument or not. One of them is `Greedy`, and it is the one that reading finds:
`Token.scan?_text`. So a token is found wherever one starts, and only one end of it is possible.

`Substituted` says what it means to put texts in the place of the tokens of a template, from the
left. Expansion does that, and nothing else: `substituted_expand_iff`.
-/
namespace Receipt.Template

open Text

theorem Call.wellFormed_iff (c : Call) : c.WellFormed ↔
    c.before.all isBlank = true ∧ c.between.all isBlank = true ∧
      (c.name ≠ [] ∧ c.name.all isWord = true) ∧
      ∀ a ∈ c.arg, a ≠ [] ∧ a.all isArgumentChar = true := by
  simp only [List.all_eq_true]
  exact ⟨fun h => ⟨h.before, h.between, h.name, h.arg⟩, fun h => ⟨h.1, h.2.1, h.2.2.1, h.2.2.2⟩⟩

instance (c : Call) : Decidable c.WellFormed := decidable_of_iff _ c.wellFormed_iff.symm

theorem Token.wellFormed_iff (t : Token) : t.WellFormed ↔
    t.lead.all isBlank = true ∧ (t.path ≠ [] ∧ t.path.all isPathChar = true) ∧
      (∀ c ∈ t.calls, c.WellFormed) ∧ t.trail.all isBlank = true := by
  simp only [List.all_eq_true]
  exact ⟨fun h => ⟨h.lead, h.path, h.calls, h.trail⟩, fun h => ⟨h.1, h.2.1, h.2.2.1, h.2.2.2⟩⟩

instance (t : Token) : Decidable t.WellFormed := decidable_of_iff _ t.wellFormed_iff.symm

/-- The texts that the grammar of tokens derives. -/
def IsToken (s : List Char) : Prop := ∃ t : Token, t.WellFormed ∧ t.text = s

theorem isBlank_of_isPathChar {c : Char} (h : isPathChar c = true) : isBlank c = false := by
  unfold isPathChar at h
  rw [Bool.or_eq_true, decide_eq_true_eq] at h
  rcases h with hword | rfl
  · exact isBlank_of_isWord hword
  · decide

/-- A class that has neither a bar nor a closing brace is one of argument characters. -/
theorem isArgumentChar_of_class {p : Char → Bool} (hbar : p '|' = false)
    (hbrace : p '\x7d' = false) {c : Char} (h : p c = true) : isArgumentChar c = true := by
  have hne : c ≠ '|' := by
    rintro rfl
    exact absurd h (by simp [hbar])
  have hne' : c ≠ '\x7d' := by
    rintro rfl
    exact absurd h (by simp [hbrace])
  simp [isArgumentChar, hne, hne']

theorem isArgumentChar_of_isBlank {c : Char} (h : isBlank c = true) : isArgumentChar c = true :=
  isArgumentChar_of_class (by decide) (by decide) h

/-- A character that no argument has stands nowhere in how an argument is written. -/
theorem Call.WellFormed.not_mem_argText {c : Call} (h : c.WellFormed) {x : Char}
    (hx : isArgumentChar x = false) : x ∉ Call.argText c.arg := by
  cases harg : c.arg with
  | none => exact List.not_mem_nil
  | some a =>
      have hcolon : x ≠ ':' := by
        rintro rfl
        exact absurd hx (by decide)
      rw [Call.argText, List.mem_cons, not_or]
      exact ⟨hcolon, not_mem_of_forall (h.arg a harg).2 hx⟩

/-- A text goes on with a blank, a bar or a closing brace. -/
inductive AtBreak : List Char → Prop
  | blank {c : Char} (h : isBlank c = true) (rest : List Char) : AtBreak (c :: rest)
  | bar (rest : List Char) : AtBreak ('|' :: rest)
  | brace (rest : List Char) : AtBreak ('\x7d' :: rest)

namespace AtBreak
variable {cs : List Char}

theorem stops_isPathChar (h : AtBreak cs) : Stops isPathChar cs := by
  cases h with
  | blank h rest =>
      refine stops_cons ?_ rest
      rw [Bool.eq_false_iff]
      intro hpath
      rw [isBlank_of_isPathChar hpath] at h
      cases h
  | bar rest => exact stops_cons (by decide) rest
  | brace rest => exact stops_cons (by decide) rest

theorem stops_isWord (h : AtBreak cs) : Stops isWord cs := by
  intro c hc
  have hpath := h.stops_isPathChar c hc
  unfold isPathChar at hpath
  rw [Bool.or_eq_false_iff] at hpath
  exact hpath.1

theorem readArgument_eq_none (h : AtBreak cs) : readArgument cs = (none, cs) := by
  unfold readArgument
  split
  · next more =>
    cases h with
    | blank h rest => exact absurd h (by decide)
  · rfl

end AtBreak

/-- What stands behind the path of a token, up to its first closing brace and what comes then. -/
def behindPath (calls : List Call) (trail rest : List Char) : List Char :=
  calls.flatMap Call.text ++ (trail ++ '\x7d' :: rest)

theorem behindPath_nil (trail rest : List Char) : behindPath [] trail rest = trail ++ '\x7d' :: rest :=
  rfl

theorem behindPath_cons (c : Call) (calls : List Call) (trail rest : List Char) :
    behindPath (c :: calls) trail rest = c.text ++ behindPath calls trail rest := by
  simp [behindPath]

theorem Token.text_append (t : Token) (rest : List Char) :
    t.text ++ rest = '\x7b' :: '\x7b' ::
      (t.lead ++ (t.path ++ behindPath t.calls t.trail ('\x7d' :: rest))) := by
  simp [Token.text, Token.suffix, behindPath]

theorem atBreak_behindPath {calls : List Call} {trail : List Char}
    (hcalls : ∀ c ∈ calls, c.WellFormed) (htrail : ∀ x ∈ trail, isBlank x = true)
    (rest : List Char) : AtBreak (behindPath calls trail rest) := by
  cases calls with
  | nil =>
      cases trail with
      | nil => exact .brace rest
      | cons x trail => exact .blank (htrail x List.mem_cons_self) _
  | cons c calls =>
      rw [behindPath_cons, Call.text]
      cases hbefore : c.before with
      | nil => exact .bar _
      | cons x before =>
          have hblank := (hcalls c List.mem_cons_self).before x (by simp [hbefore])
          exact .blank hblank _

/-- Every argument reaches as far as an argument can. -/
def Greedy : List Call → List Char → Prop
  | [], _ => True
  | c :: calls, trail =>
    (c.arg ≠ none → ∀ rest, Stops isArgumentChar (behindPath calls trail rest)) ∧
      Greedy calls trail

section reading

/-- The blanks before a bar or a closing brace are read as such. -/
theorem takeWhile_blanks {blanks : List Char} (h : ∀ x ∈ blanks, isBlank x = true) {c : Char}
    (hc : isBlank c = false) (rest : List Char) :
    (blanks ++ c :: rest).takeWhile isBlank = blanks ∧
      (blanks ++ c :: rest).dropWhile isBlank = c :: rest :=
  ⟨takeWhile_append_stop h (stops_cons hc rest), dropWhile_append_stop h (stops_cons hc rest)⟩

/-- An argument is read, or none, whatever the token goes on with. -/
theorem readArgument_text {arg : Option (List Char)}
    (harg : ∀ a ∈ arg, a ≠ [] ∧ ∀ x ∈ a, isArgumentChar x = true) {rest : List Char}
    (hbreak : AtBreak rest) (hstop : arg ≠ none → Stops isArgumentChar rest) :
    readArgument (Call.argText arg ++ rest) = (arg, rest) := by
  cases arg with
  | none => exact hbreak.readArgument_eq_none
  | some a =>
      obtain ⟨hne, hall⟩ := harg a rfl
      have hstop := hstop nofun
      show readArgument (':' :: (a ++ rest)) = (some a, rest)
      simp only [readArgument, takeWhile_append_stop hall hstop, dropWhile_append_stop hall hstop]

theorem stops_isWord_argText {arg : Option (List Char)} {rest : List Char}
    (hbreak : AtBreak rest) : Stops isWord (Call.argText arg ++ rest) := by
  cases arg with
  | none => exact hbreak.stops_isWord
  | some a => exact stops_cons (by decide) _

theorem Call.scan?_text {c : Call} (h : c.WellFormed) {rest : List Char} (hbreak : AtBreak rest)
    (hstop : c.arg ≠ none → Stops isArgumentChar rest) :
    Call.scan? (c.text ++ rest) = some (c, rest) := by
  obtain ⟨before, between, name, arg⟩ := c
  obtain ⟨hbefore, hbetween, ⟨hne, hname⟩, harg⟩ := h
  have htext : Call.text ⟨before, between, name, arg⟩ ++ rest =
      before ++ '|' :: (between ++ (name ++ (Call.argText arg ++ rest))) := by
    simp [Call.text]
  have hbar := takeWhile_blanks hbefore (c := '|') (by decide)
    (between ++ (name ++ (Call.argText arg ++ rest)))
  have hstart : Stops isBlank (name ++ (Call.argText arg ++ rest)) := by
    cases name with
    | nil => exact (hne rfl).elim
    | cons x name => exact stops_cons (isBlank_of_isWord (hname x List.mem_cons_self)) _
  have hend : Stops isWord (Call.argText arg ++ rest) := stops_isWord_argText hbreak
  rw [htext, Call.scan?, hbar.2]
  simp only [hbar.1, takeWhile_append_stop hbetween hstart, dropWhile_append_stop hbetween hstart,
    takeWhile_append_stop hname hend, dropWhile_append_stop hname hend,
    readArgument_text harg hbreak hstop]

theorem scanCalls_behindPath {calls : List Call} {trail : List Char}
    (hcalls : ∀ c ∈ calls, c.WellFormed) (htrail : ∀ x ∈ trail, isBlank x = true)
    (hgreedy : Greedy calls trail) (rest : List Char) :
    scanCalls (behindPath calls trail rest) = (calls, trail ++ '\x7d' :: rest) := by
  induction calls with
  | nil =>
      have hnone : Call.scan? (trail ++ '\x7d' :: rest) = none := by
        rw [Call.scan?, (takeWhile_blanks htrail (c := '\x7d') (by decide) rest).2]
        rfl
      rw [behindPath_nil, scanCalls]
      split
      · rfl
      · next hsome =>
        rw [hnone] at hsome
        cases hsome
  | cons c calls ih =>
      obtain ⟨hstop, hgreedy⟩ := hgreedy
      have hrest : ∀ d ∈ calls, d.WellFormed := fun d hd => hcalls d (List.mem_cons_of_mem _ hd)
      have hscan := Call.scan?_text (hcalls c List.mem_cons_self)
        (atBreak_behindPath hrest htrail rest) fun harg => hstop harg rest
      rw [behindPath_cons, scanCalls]
      split
      · next hnone =>
        rw [hscan] at hnone
        cases hnone
      · next d after hsome =>
        rw [hscan] at hsome
        cases hsome
        rw [ih hrest hgreedy]

/-- A token is read as its greedy derivation, whatever comes after it. -/
theorem Token.scan?_text {t : Token} (h : t.WellFormed) (hgreedy : Greedy t.calls t.trail)
    (rest : List Char) : Token.scan? (t.text ++ rest) = some (t, rest) := by
  rw [Token.text_append]
  obtain ⟨lead, path, calls, trail⟩ := t
  obtain ⟨hlead, ⟨hne, hpath⟩, hcalls, htrail⟩ := h
  have hstart : Stops isBlank (path ++ behindPath calls trail ('\x7d' :: rest)) := by
    cases path with
    | nil => exact (hne rfl).elim
    | cons x path => exact stops_cons (isBlank_of_isPathChar (hpath x List.mem_cons_self)) _
  have hend : Stops isPathChar (behindPath calls trail ('\x7d' :: rest)) :=
    (atBreak_behindPath hcalls htrail _).stops_isPathChar
  have hclose := takeWhile_blanks htrail (c := '\x7d') (by decide) ('\x7d' :: rest)
  simp only [Token.scan?, takeWhile_append_stop hlead hstart, dropWhile_append_stop hlead hstart,
    takeWhile_append_stop hpath hend, dropWhile_append_stop hpath hend,
    scanCalls_behindPath hcalls htrail hgreedy, hclose]

end reading

/-- The same operator with a longer argument. -/
def Call.extend (c : Call) (blanks : List Char) : Call :=
  { c with arg := c.arg.map (· ++ blanks) }

/-- The same operator without blanks before its bar. -/
def Call.close (c : Call) : Call := { c with before := [] }

namespace Call

theorem text_extend {c : Call} (h : c.arg ≠ none) (blanks : List Char) :
    (c.extend blanks).text = c.text ++ blanks := by
  obtain ⟨before, between, name, arg⟩ := c
  cases arg with
  | none => exact (h rfl).elim
  | some a => simp [extend, Call.text, argText]

theorem text_close (c : Call) : c.text = c.before ++ c.close.text := rfl

theorem WellFormed.extend {c : Call} (h : c.WellFormed) {blanks : List Char}
    (hblanks : ∀ x ∈ blanks, isBlank x = true) : (c.extend blanks).WellFormed := by
  refine ⟨h.before, h.between, h.name, ?_⟩
  intro b hb
  obtain ⟨a, ha, rfl⟩ := Option.map_eq_some_iff.1 hb
  obtain ⟨hne, hall⟩ := h.arg a ha
  constructor
  · simp [hne]
  · intro x hx
    rcases List.mem_append.1 hx with hx | hx
    · exact hall x hx
    · exact isArgumentChar_of_isBlank (hblanks x hx)

theorem WellFormed.close {c : Call} (h : c.WellFormed) : c.close.WellFormed :=
  ⟨nofun, h.between, h.name, h.arg⟩

end Call

/-- Arguments may take the blanks behind them, and what is written stays the same. -/
theorem exists_greedy {calls : List Call} {trail : List Char} (hcalls : ∀ c ∈ calls, c.WellFormed)
    (htrail : ∀ x ∈ trail, isBlank x = true) :
    ∃ calls' trail', (∀ c ∈ calls', c.WellFormed) ∧ (∀ x ∈ trail', isBlank x = true) ∧
      Greedy calls' trail' ∧
      ∀ rest, behindPath calls' trail' rest = behindPath calls trail rest := by
  induction calls with
  | nil => exact ⟨[], trail, hcalls, htrail, trivial, fun _ => rfl⟩
  | cons c calls ih =>
      obtain ⟨calls', trail', hcalls', htrail', hgreedy, htext⟩ :=
        ih fun d hd => hcalls d (List.mem_cons_of_mem _ hd)
      have hc := hcalls c List.mem_cons_self
      by_cases harg : c.arg = none
      · refine ⟨c :: calls', trail', ?_, htrail', ⟨fun h => (h harg).elim, hgreedy⟩, ?_⟩
        · exact List.forall_mem_cons.2 ⟨hc, hcalls'⟩
        · intro rest
          rw [behindPath_cons, behindPath_cons, htext]
      · cases calls' with
        | nil =>
            refine ⟨[c.extend trail'], [], ?_, nofun, ⟨?_, trivial⟩, ?_⟩
            · exact List.forall_mem_singleton.2 (hc.extend htrail')
            · exact fun _ rest => stops_cons (by decide) rest
            · intro rest
              rw [behindPath_cons, behindPath_cons, Call.text_extend harg, ← htext, behindPath_nil,
                behindPath_nil, List.append_assoc, List.nil_append]
        | cons d calls' =>
            obtain ⟨hd, hcalls'⟩ := List.forall_mem_cons.1 hcalls'
            refine ⟨c.extend d.before :: d.close :: calls', trail', ?_, htrail', ⟨?_, hgreedy⟩, ?_⟩
            · exact List.forall_mem_cons.2
                ⟨hc.extend hd.before, List.forall_mem_cons.2 ⟨hd.close, hcalls'⟩⟩
            · exact fun _ rest => stops_cons (by decide) _
            · intro rest
              rw [behindPath_cons, behindPath_cons, behindPath_cons, Call.text_extend harg, ← htext,
                behindPath_cons, d.text_close, List.append_assoc, List.append_assoc]

namespace IsToken
variable {s s' rest rest' : List Char}

/-- A token is read where it stands, and in the same way whatever comes after it. -/
theorem exists_scan? (h : IsToken s) :
    ∃ t : Token, t.text = s ∧ ∀ rest, Token.scan? (s ++ rest) = some (t, rest) := by
  obtain ⟨t, ht, rfl⟩ := h
  obtain ⟨calls, trail, hcalls, htrail, hgreedy, htext⟩ := exists_greedy ht.calls ht.trail
  have hsame : ∀ rest, Token.text ⟨t.lead, t.path, calls, trail⟩ ++ rest = t.text ++ rest := by
    intro rest
    rw [Token.text_append, Token.text_append, htext]
  refine ⟨⟨t.lead, t.path, calls, trail⟩, ?_, fun rest => ?_⟩
  · simpa using hsame []
  · have hwf : Token.WellFormed ⟨t.lead, t.path, calls, trail⟩ :=
      ⟨ht.lead, ht.path, hcalls, htrail⟩
    rw [← hsame]
    exact Token.scan?_text hwf hgreedy rest

theorem of_scan? {cs : List Char} {t : Token} (h : Token.scan? cs = some (t, rest)) :
    IsToken t.text :=
  ⟨t, Token.wellFormed_of_scan? h, rfl⟩

/-- From where a token starts, only one end of it is possible. -/
theorem eq_of_append_eq (h : IsToken s) (h' : IsToken s') (heq : s ++ rest = s' ++ rest') :
    s = s' := by
  obtain ⟨t, rfl, hscan⟩ := h.exists_scan?
  obtain ⟨t', rfl, hscan'⟩ := h'.exists_scan?
  have hsame := hscan rest
  rw [heq, hscan'] at hsame
  cases hsame
  rfl

end IsToken

/-- What was read as a token is read so before any other text. -/
theorem Token.scan?_text_append {cs rest : List Char} {t : Token}
    (h : Token.scan? cs = some (t, rest)) (more : List Char) :
    Token.scan? (t.text ++ more) = some (t, more) := by
  obtain ⟨t', -, hscan⟩ := (IsToken.of_scan? h).exists_scan?
  have hsame := hscan rest
  rw [← Token.scan?_eq h, h] at hsame
  cases hsame
  exact hscan more

/-- The tokens of a template, from the left, are replaced as given, and every other character is
copied. At each place a token is replaced if one starts there, and the template goes on behind it;
what is put in is not looked at again. The first replacement that fails is what comes of it. -/
inductive Substituted (replace : List Char → Except Error (List Char)) :
    List Char → Except Error (List Char) → Prop
  | nil : Substituted replace [] (.ok [])
  | token {s rest : List Char} {r : Except Error (List Char)} (h : IsToken s)
      (hrest : Substituted replace rest r) :
      Substituted replace (s ++ rest) (do
        let here ← replace s
        let more ← r
        return here ++ more)
  | char {c : Char} {rest : List Char} {r : Except Error (List Char)}
      (h : ∀ s rest', IsToken s → c :: rest ≠ s ++ rest') (hrest : Substituted replace rest r) :
      Substituted replace (c :: rest) (r.map (c :: ·))

namespace Expander
variable [Host] {x : Expander} {data : Value}

/-- What a token becomes, by its text. -/
def replacement (x : Expander) (data : Value) (s : List Char) : Except Error (List Char) :=
  match Token.scan? s with
  | some (t, _) => x.tokenText data t
  | none => .ok s

theorem replacement_text {cs rest : List Char} {t : Token}
    (h : Token.scan? cs = some (t, rest)) : x.replacement data t.text = x.tokenText data t := by
  have halone := Token.scan?_text_append h []
  rw [List.append_nil] at halone
  rw [replacement, halone]

theorem expandText_nil (x : Expander) (data : Value) : x.expandText data [] = .ok [] := by
  rw [expandText, Piece.cut]
  rfl

theorem expandText_of_scan? {cs rest : List Char} {t : Token}
    (h : Token.scan? cs = some (t, rest)) : x.expandText data cs = (do
      let here ← x.tokenText data t
      let more ← x.expandText data rest
      return here ++ more) := by
  cases cs with
  | nil => cases h
  | cons c cs =>
      rw [expandText, Piece.cut]
      split
      · next t' rest' h' =>
        rw [h] at h'
        cases h'
        rfl
      · next h' =>
        rw [h] at h'
        cases h'

theorem expandText_cons {c : Char} {rest : List Char} (h : Token.scan? (c :: rest) = none) :
    x.expandText data (c :: rest) = (x.expandText data rest).map (c :: ·) := by
  rw [expandText, Piece.cut]
  split
  · next h' =>
    rw [h] at h'
    cases h'
  · rw [piecesText]
    show (x.expandText data rest).bind _ = _
    cases x.expandText data rest <;> rfl

/-- A template that is a text is expanded as it stands. -/
theorem expand_text (x : Expander) (template : String) (data : Value) :
    x.expand (.text template) data = (x.expandText data template.toList).map String.ofList :=
  rfl

theorem substituted_expandText (x : Expander) (data : Value) (cs : List Char) :
    Substituted (x.replacement data) cs (x.expandText data cs) := by
  fun_induction Piece.cut cs with
  | case1 =>
      rw [expandText_nil]
      exact .nil
  | case2 c rest t after h ih =>
      rw [expandText_of_scan? h, ← replacement_text h, Token.scan?_eq h]
      exact .token (.of_scan? h) ih
  | case3 c rest h ih =>
      rw [expandText_cons h]
      refine .char ?_ ih
      intro s rest' hs heq
      obtain ⟨t, -, hscan⟩ := hs.exists_scan?
      rw [heq, hscan] at h
      cases h

theorem eq_expandText_of_substituted {cs : List Char} {r : Except Error (List Char)}
    (h : Substituted (x.replacement data) cs r) : r = x.expandText data cs := by
  induction h with
  | nil => rw [expandText_nil]
  | @token s rest r h hrest ih =>
      obtain ⟨t, rfl, hscan⟩ := h.exists_scan?
      rw [expandText_of_scan? (hscan rest), ← replacement_text (hscan rest), ih]
  | @char c rest r h hrest ih =>
      have hnone : Token.scan? (c :: rest) = none := by
        cases hscan : Token.scan? (c :: rest) with
        | none => rfl
        | some found => exact (h _ found.2 (.of_scan? hscan) (Token.scan?_eq hscan)).elim
      rw [expandText_cons hnone, ih]

/-- Expansion puts a text in the place of every token of a template, which depends on the token, the
data and the settings only, and copies the rest. The tokens are the leftmost texts of the grammar,
of which only one can start at a place. Expansion fails only where the operators of a token fail or
what they leave cannot be printed, and then as the first such token does. -/
theorem substituted_expand_iff (x : Expander) (data : Value) (template : String) :
    (∀ s s' rest rest', IsToken s → IsToken s' → s ++ rest = s' ++ rest' → s = s') ∧
    ∀ r, Substituted (x.replacement data) template.toList r ↔
      (x.expand (.text template) data).map String.toList = r := by
  constructor
  · exact fun s s' rest rest' h h' heq => h.eq_of_append_eq h' heq
  · intro r
    have hexpand : (x.expand (.text template) data).map String.toList =
        x.expandText data template.toList := by
      rw [expand_text]
      cases x.expandText data template.toList with
      | error e => rfl
      | ok cs => exact congrArg Except.ok String.toList_ofList
    rw [hexpand]
    constructor
    · exact fun h => (eq_expandText_of_substituted h).symm
    · rintro rfl
      exact substituted_expandText x data template.toList

/-- A token whose first operator asks for more characters than a text can have. -/
def wideToken : Token :=
  { lead := []
    path := ['a']
    calls := [⟨[], [], "padLeft".toList, some "10000000000000000000".toList⟩,
      ⟨[], [], "fit".toList, some ['1']⟩]
    trail := [] }

omit [Host] in
theorem scan?_wideToken :
    Token.scan? "\x7b\x7ba|padLeft:10000000000000000000|fit:1\x7d\x7d".toList =
      some (wideToken, []) := by
  have hgreedy : Greedy wideToken.calls wideToken.trail :=
    ⟨fun _ _ => stops_cons (by decide) _, fun _ _ => stops_cons (by decide) _, trivial⟩
  exact Token.scan?_text (by decide) hgreedy []

omit [Host] in
/-- Not every template is expanded: the operators of a token may fail, although the text that they
would leave in the end is a short one. -/
theorem expand_tooWide :
    letI := Host.standard 2025
    Expander.expand ⟨Operators.builtin (.text "%x %X"), .keepToken⟩
        (.text "\x7b\x7ba|padLeft:10000000000000000000|fit:1\x7d\x7d")
        (.map [(.text "a", .text "x")]) = .error .tooWide ∧
      ¬ ∀ (x : Expander) (data : Value) (template : String),
        ∃ out, x.expand (.text template) data = .ok out := by
  let host := Host.standard 2025
  have hfails : Expander.expand ⟨Operators.builtin (.text "%x %X"), .keepToken⟩
      (.text "\x7b\x7ba|padLeft:10000000000000000000|fit:1\x7d\x7d")
      (.map [(.text "a", .text "x")]) = .error .tooWide := by
    rw [expand_text, expandText_of_scan? scan?_wideToken]
    have htoken : tokenText ⟨Operators.builtin (.text "%x %X"), .keepToken⟩
        (.map [(.text "a", .text "x")]) wideToken = .error .tooWide := by
      rfl
    rw [htoken]
    rfl
  constructor
  · exact hfails
  · intro hall
    obtain ⟨out, hout⟩ := hall _ _ _
    rw [hfails] at hout
    cases hout

end Expander
end Receipt.Template
