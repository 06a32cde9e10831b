import Receipt.Text.Blank
import Receipt.Text.Word

/-!
# Placeholder tokens

A token is a text `{{ path | name:arg | … }}`, with any blanks around its parts. `Token` holds the
parts and `Token.text` writes them; `Token.scan?` reads a token at the front of a text and
`Piece.cut` cuts a template into tokens and the characters between them. Reading never goes back:
after the path and after each operator the next character decides what follows.

Main statements: what is read is written the same, `Token.scan?_eq`, and it is well-formed,
`Token.wellFormed_of_scan?`.
-/
namespace Receipt.Template

open Text

def isPathChar (c : Char) : Bool := isWord c || c = '.'

def isArgumentChar (c : Char) : Bool := c ≠ '|' && c ≠ '\x7d'

/-- One operator of a token, with the blanks before its bar and before its name. -/
structure Call where
  before : List Char
  between : List Char
  name : List Char
  arg : Option (List Char)
  deriving DecidableEq, Repr

def Call.argText : Option (List Char) → List Char
  | none => []
  | some arg => ':' :: arg

def Call.text (c : Call) : List Char :=
  c.before ++ '|' :: (c.between ++ (c.name ++ Call.argText c.arg))

structure Call.WellFormed (c : Call) : Prop where
  before : ∀ x ∈ c.before, isBlank x = true
  between : ∀ x ∈ c.between, isBlank x = true
  name : c.name ≠ [] ∧ ∀ x ∈ c.name, isWord x = true
  arg : ∀ a ∈ c.arg, a ≠ [] ∧ ∀ x ∈ a, isArgumentChar x = true

/-- A token in its parts. -/
structure Token where
  lead : List Char
  path : List Char
  calls : List Call
  trail : List Char
  deriving DecidableEq, Repr

/-- The operators as they are written. -/
def Token.suffix (t : Token) : List Char := t.calls.flatMap Call.text

def Token.text (t : Token) : List Char :=
  '\x7b' :: '\x7b' :: (t.lead ++ (t.path ++ (t.suffix ++ (t.trail ++ ['\x7d', '\x7d']))))

structure Token.WellFormed (t : Token) : Prop where
  lead : ∀ x ∈ t.lead, isBlank x = true
  path : t.path ≠ [] ∧ ∀ x ∈ t.path, isPathChar x = true
  calls : ∀ c ∈ t.calls, c.WellFormed
  trail : ∀ x ∈ t.trail, isBlank x = true

/-- Reads an argument after its colon; without any character there is none, and the colon stays. -/
def readArgument (cs : List Char) : Option (List Char) × List Char :=
  match cs with
  | ':' :: more =>
    match more.takeWhile isArgumentChar with
    | [] => (none, cs)
    | arg => (some arg, more.dropWhile isArgumentChar)
  | cs => (none, cs)

def Call.scan? (cs : List Char) : Option (Call × List Char) :=
  match cs.dropWhile isBlank with
  | '|' :: rest =>
    let word := rest.dropWhile isBlank
    match word.takeWhile isWord with
    | [] => none
    | name =>
      let (arg, after) := readArgument (word.dropWhile isWord)
      some (⟨cs.takeWhile isBlank, rest.takeWhile isBlank, name, arg⟩, after)
  | _ => none

theorem readArgument_eq (cs : List Char) :
    Call.argText (readArgument cs).1 ++ (readArgument cs).2 = cs := by
  unfold readArgument
  split
  · next more =>
    split
    · rfl
    · next h => simp [Call.argText, List.takeWhile_append_dropWhile]
  · rfl

theorem Call.scan?_eq {cs rest : List Char} {c : Call} (h : Call.scan? cs = some (c, rest)) :
    cs = c.text ++ rest := by
  unfold Call.scan? at h
  split at h
  · next more hbar =>
    dsimp only at h
    split at h
    · simp at h
    · next hname =>
      simp only [Option.some.injEq, Prod.mk.injEq] at h
      obtain ⟨rfl, rfl⟩ := h
      have harg := readArgument_eq ((more.dropWhile isBlank).dropWhile isWord)
      simp only [Call.text, List.append_assoc, List.cons_append, harg,
        List.takeWhile_append_dropWhile]
      rw [← hbar, List.takeWhile_append_dropWhile]
  · simp at h

theorem Call.length_text_pos (c : Call) : 0 < c.text.length := by
  simp only [Call.text, List.length_append, List.length_cons]
  omega

theorem Call.length_scan?_lt {cs rest : List Char} {c : Call}
    (h : Call.scan? cs = some (c, rest)) : rest.length < cs.length := by
  rw [Call.scan?_eq h, List.length_append]
  have := c.length_text_pos
  omega

theorem arg_readArgument {cs arg : List Char} (h : (readArgument cs).1 = some arg) :
    arg ≠ [] ∧ ∀ x ∈ arg, isArgumentChar x = true := by
  unfold readArgument at h
  split at h
  · next more =>
    split at h
    · simp at h
    · next hne =>
      obtain rfl := Option.some.inj h
      exact ⟨hne, fun _ hx => List.all_eq_true.1 List.all_takeWhile _ hx⟩
  · simp at h

theorem Call.wellFormed_of_scan? {cs rest : List Char} {c : Call}
    (h : Call.scan? cs = some (c, rest)) : c.WellFormed := by
  unfold Call.scan? at h
  split at h
  · dsimp only at h
    split at h
    · simp at h
    · next hne =>
      simp only [Option.some.injEq, Prod.mk.injEq] at h
      obtain ⟨rfl, rfl⟩ := h
      exact ⟨List.all_eq_true.1 List.all_takeWhile, List.all_eq_true.1 List.all_takeWhile,
        ⟨hne, List.all_eq_true.1 List.all_takeWhile⟩, fun _ ha => arg_readArgument ha⟩
  · simp at h

def scanCalls (cs : List Char) : List Call × List Char :=
  match _h : Call.scan? cs with
  | none => ([], cs)
  | some (c, rest) => (c :: (scanCalls rest).1, (scanCalls rest).2)
termination_by cs.length
decreasing_by all_goals exact Call.length_scan?_lt _h

theorem scanCalls_eq (cs : List Char) :
    (scanCalls cs).1.flatMap Call.text ++ (scanCalls cs).2 = cs := by
  fun_induction scanCalls cs with
  | case1 => rfl
  | case2 cs c rest h ih =>
      rw [List.flatMap_cons, List.append_assoc, ih]
      exact (Call.scan?_eq h).symm

theorem wellFormed_scanCalls (cs : List Char) : ∀ c ∈ (scanCalls cs).1, c.WellFormed := by
  fun_induction scanCalls cs with
  | case1 => simp
  | case2 cs c rest h ih =>
      intro d hd
      rcases List.mem_cons.1 hd with rfl | hd
      · exact Call.wellFormed_of_scan? h
      · exact ih d hd

/-- Reads a token at the front of a text, and gives the text behind it. -/
def Token.scan? (cs : List Char) : Option (Token × List Char) :=
  match cs with
  | '\x7b' :: '\x7b' :: inner =>
    let start := inner.dropWhile isBlank
    match start.takeWhile isPathChar with
    | [] => none
    | path =>
      let (calls, after) := scanCalls (start.dropWhile isPathChar)
      match after.dropWhile isBlank with
      | '\x7d' :: '\x7d' :: rest =>
        some (⟨inner.takeWhile isBlank, path, calls, after.takeWhile isBlank⟩, rest)
      | _ => none
  | _ => none

theorem Token.scan?_eq {cs rest : List Char} {t : Token} (h : Token.scan? cs = some (t, rest)) :
    cs = t.text ++ rest := by
  unfold Token.scan? at h
  split at h
  · next inner =>
    dsimp only at h
    split at h
    · simp at h
    · next hpath =>
      split at h
      · next more hclose =>
        simp only [Option.some.injEq, Prod.mk.injEq] at h
        obtain ⟨rfl, rfl⟩ := h
        simp only [Token.text, Token.suffix, List.cons_append, List.append_assoc, List.nil_append]
        rw [← hclose, List.takeWhile_append_dropWhile, scanCalls_eq,
          List.takeWhile_append_dropWhile, List.takeWhile_append_dropWhile]
      · simp at h
  · simp at h

theorem Token.wellFormed_of_scan? {cs rest : List Char} {t : Token}
    (h : Token.scan? cs = some (t, rest)) : t.WellFormed := by
  unfold Token.scan? at h
  split at h
  · dsimp only at h
    split at h
    · simp at h
    · next hne =>
      split at h
      · simp only [Option.some.injEq, Prod.mk.injEq] at h
        obtain ⟨rfl, rfl⟩ := h
        exact ⟨List.all_eq_true.1 List.all_takeWhile,
          ⟨hne, List.all_eq_true.1 List.all_takeWhile⟩, wellFormed_scanCalls _,
          List.all_eq_true.1 List.all_takeWhile⟩
      · simp at h
  · simp at h

theorem Token.length_scan?_lt {cs rest : List Char} {t : Token}
    (h : Token.scan? cs = some (t, rest)) : rest.length < cs.length := by
  rw [Token.scan?_eq h, List.length_append]
  simp only [Token.text, List.length_cons]
  omega

inductive Piece where
  | char (c : Char)
  | token (t : Token)
  deriving DecidableEq, Repr

/-- Cuts a template into pieces: at every place a token if one starts there, and otherwise the
character. -/
def Piece.cut (cs : List Char) : List Piece :=
  match cs with
  | [] => []
  | c :: rest =>
    match _h : Token.scan? (c :: rest) with
    | some (t, after) => .token t :: Piece.cut after
    | none => .char c :: Piece.cut rest
termination_by cs.length
decreasing_by
  · exact Token.length_scan?_lt _h
  · simp

end Receipt.Template
