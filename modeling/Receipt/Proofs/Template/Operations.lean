import Receipt.Proofs.Template.Grammar
import Receipt.Proofs.Text.Trim
import Receipt.Template.Pipeline

/-!
# The operators of a token as operations

The operators of a token are read twice. They are parts of the token, and they are operations once
the text behind its path is cut at the bars. Both readings agree, `parseOperations_of_scan?`: each
operator is one operation with its name, and with its argument less the blanks at the end.
-/
namespace Receipt.Template

open Text

/-- The operation that an operator of a token stands for. -/
def Call.operation (c : Call) : Operation :=
  (String.ofList c.name, c.arg.map fun arg => String.ofList (trimRight arg))

/-- What an operator is written as behind its bar. -/
def Call.chunk (c : Call) : List Char := c.between ++ (c.name ++ Call.argText c.arg)

theorem Call.text_eq_chunk (c : Call) : c.text = c.before ++ '|' :: c.chunk := rfl

theorem trimRight_argText (arg : Option (List Char)) :
    trimRight (Call.argText arg) = Call.argText (arg.map trimRight) := by
  cases arg with
  | none => rfl
  | some a => exact trimRight_append_cons (by decide) [] a

theorem cutAt_argText {name : List Char} (h : ':' ∉ name) (arg : Option (List Char)) :
    cutAt ':' (name ++ Call.argText arg) = (name, arg) := by
  cases arg with
  | none => rw [Call.argText, List.append_nil, cutAt_eq_none h]
  | some a => exact cutAt_append a h

theorem readOperation?_of_trim {chunk cs : List Char} (hne : cs ≠ []) (h : trim chunk = cs) :
    readOperation? chunk =
      some (String.ofList (trim (cutAt ':' cs).1), (cutAt ':' cs).2.map String.ofList) := by
  rw [readOperation?, h]
  cases cs with
  | nil => exact (hne rfl).elim
  | cons c cs => rfl

namespace Call.WellFormed
variable {c : Call}

theorem bar_not_mem_chunk (h : c.WellFormed) : '|' ∉ c.chunk := by
  simp only [Call.chunk, List.mem_append, not_or]
  exact ⟨not_mem_of_forall h.between (by decide), not_mem_of_forall h.name.2 (by decide),
    h.not_mem_argText (by decide)⟩

theorem isBlank_name (h : c.WellFormed) : ∀ x ∈ c.name, isBlank x = false :=
  fun x hx => isBlank_of_isWord (h.name.2 x hx)

/-- The blanks before a name are cut off with the chunk, and those behind an argument. -/
theorem readOperation?_chunk (h : c.WellFormed) : readOperation? c.chunk = some c.operation := by
  have htrim : trim c.chunk = c.name ++ Call.argText (c.arg.map trimRight) := by
    rw [Call.chunk, trim_blanks_append h.between, trim_word_append h.name.1 h.isBlank_name,
      trimRight_argText]
  have hcolon : ':' ∉ c.name := not_mem_of_forall h.name.2 (by decide)
  have hne : c.name ++ Call.argText (c.arg.map trimRight) ≠ [] :=
    List.append_ne_nil_of_left_ne_nil h.name.1 _
  rw [readOperation?_of_trim hne htrim, cutAt_argText hcolon, Call.operation,
    trim_word h.name.1 h.isBlank_name, Option.map_map]
  rfl

end Call.WellFormed

/-- Blanks behind a chunk belong to the bar that follows. -/
theorem readOperation?_append_blanks {blanks : List Char} (h : ∀ x ∈ blanks, isBlank x = true)
    (chunk : List Char) : readOperation? (chunk ++ blanks) = readOperation? chunk := by
  rw [readOperation?, readOperation?, trim_append_blanks h]

/-- The chunk at hand is read first, then one operation for each operator. -/
theorem parseOperations_append {calls : List Call} (hcalls : ∀ c ∈ calls, c.WellFormed)
    {chunk : List Char} (hbar : '|' ∉ chunk) :
    parseOperations (chunk ++ calls.flatMap Call.text) =
      (readOperation? chunk).toList ++ calls.map Call.operation := by
  induction calls generalizing chunk with
  | nil =>
      rw [List.flatMap_nil, List.append_nil, parseOperations, splitOn_eq_singleton hbar]
      cases h : readOperation? chunk <;> simp [h]
  | cons c calls ih =>
      obtain ⟨hc, hcalls⟩ := List.forall_mem_cons.1 hcalls
      have hbefore : '|' ∉ chunk ++ c.before := by
        rw [List.mem_append, not_or]
        exact ⟨hbar, not_mem_of_forall hc.before (by decide)⟩
      have htext : chunk ++ (c :: calls).flatMap Call.text =
          (chunk ++ c.before) ++ '|' :: (c.chunk ++ calls.flatMap Call.text) := by
        simp [Call.text_eq_chunk]
      have hrest := ih hcalls hc.bar_not_mem_chunk
      rw [parseOperations] at hrest
      rw [htext, parseOperations, splitOn_append, splitOn_eq_singleton hbefore,
        List.filterMap_append, hrest, hc.readOperation?_chunk]
      rw [← readOperation?_append_blanks hc.before chunk]
      cases h : readOperation? (chunk ++ c.before) <;> simp [h]

theorem parseOperations_suffix {t : Token} (h : ∀ c ∈ t.calls, c.WellFormed) :
    parseOperations t.suffix = t.calls.map Call.operation :=
  parseOperations_append h List.not_mem_nil

/-- The operations of a token that is read are its operators, one for one and in order: under their
names, without an argument where no colon gave one, and otherwise with all of the argument but the
blanks at its end. -/
theorem parseOperations_of_scan? {cs rest : List Char} {t : Token}
    (h : Token.scan? cs = some (t, rest)) :
    parseOperations t.suffix = t.calls.map Call.operation ∧
      ∀ c ∈ t.calls, ∀ arg ∈ c.arg, ∃ blanks, arg = trimRight arg ++ blanks ∧
        (∀ x ∈ blanks, isBlank x = true) ∧ ∀ x ∈ (trimRight arg).getLast?, isBlank x = false :=
  ⟨parseOperations_suffix (Token.wellFormed_of_scan? h).calls,
    fun _ _ arg _ => exists_trimRight_append arg⟩

/-- A token with blanks around its parts and in an argument, which has a colon of its own. -/
def looseToken : Token :=
  { lead := [' ']
    path := ['p']
    calls := [⟨[' '], [' '], "default".toList, some "  x: y ".toList⟩,
      ⟨[], [], "fit".toList, none⟩, ⟨[' '], [], "upper".toList, some " ".toList⟩]
    trail := [] }

theorem scan?_looseToken :
    Token.scan? "\x7b\x7b p | default:  x: y |fit |upper: \x7d\x7d.".toList =
      some (looseToken, ['.']) := by
  have hgreedy : Greedy looseToken.calls looseToken.trail :=
    ⟨fun _ _ => stops_cons (by decide) _, fun h => (h rfl).elim,
      fun _ _ => stops_cons (by decide) _, trivial⟩
  exact Token.scan?_text (by decide) hgreedy ['.']

theorem parseOperations_of_scan?_loose :
    Token.scan? "\x7b\x7b p | default:  x: y |fit |upper: \x7d\x7d.".toList =
        some (looseToken, ['.']) ∧
      parseOperations " | default:  x: y |fit |upper: ".toList =
        [("default", some "  x: y"), ("fit", none), ("upper", some "")] :=
  ⟨scan?_looseToken, (parseOperations_of_scan? scan?_looseToken).1⟩

end Receipt.Template
