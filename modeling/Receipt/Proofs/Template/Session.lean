import Mathlib.Data.List.Nodup
import Receipt.Host.Standard
import Receipt.Template.Expand

/-!
# Operators from request to request

A set of operators is asked for one thing after another: to take in a candidate, to find an operator,
to run operations or to expand a template. Only a candidate that is an operator changes the set, so
that behind some requests there is what they add, put in one after another: `after_eq_putAll`. Then
the names are the first ones and the new ones in the order in which they came, each name finds what
was added last under it, and every answer is given with these operators alone: `answers_after`.
-/
namespace Receipt.Template

/-- What a set of operators is asked for. -/
inductive Request where
  | add (candidate : Candidate)
  | find (name : String)
  | run (v : Value) (operations : List Operation)
  | expand (policy : EmptyPolicy) (template data : Value)

inductive Answer where
  | added
  | rejected (why : NotAnOperator)
  | found (op : Option Operator)
  | value (result : Except Error Value)
  | text (result : Except Error String)

/-- The operator that a request adds, with its name. -/
def Request.entry? : Request → Option (String × Operator)
  | .add (.operator name op) => some (name, op)
  | .add .other | .find _ | .run _ _ | .expand _ _ _ => none

/-- What some requests add, in their order. -/
def entries (requests : List Request) : List (String × Operator) :=
  requests.filterMap Request.entry?

/-- Applies operators that were found, each with its argument. -/
def applyEach [Host] (v : Value) (found : List (Operator × Option String)) : Except Error Value :=
  found.foldlM (fun v step => step.1.apply v step.2) v

/-- The operators of some operations; a name without operator is passed over. -/
def lookups (find : String → Option Operator) (operations : List Operation) :
    List (Operator × Option String) :=
  operations.filterMap fun operation => (find operation.1).map (·, operation.2)

/-- The answer that a request gets where operators are found by name. A text is expanded as by any
set that finds the same. -/
inductive Answered [Host] (find : String → Option Operator) : Request → Answer → Prop
  | added {name : String} {op : Operator} : Answered find (.add (.operator name op)) .added
  | rejected : Answered find (.add .other) (.rejected .mk)
  | found {name : String} : Answered find (.find name) (.found (find name))
  | value {v : Value} {operations : List Operation} :
      Answered find (.run v operations) (.value (applyEach v (lookups find operations)))
  | text {policy : EmptyPolicy} {template data : Value} {result : Except Error String} :
      (∀ ops : Operators, (∀ name, ops.get? name = find name) →
        Expander.expand ⟨ops, policy⟩ template data = result) →
      Answered find (.expand policy template data) (.text result)

namespace Operators

variable {ops ops' : Operators} {name other : String} {op : Operator}

def names (ops : Operators) : List String := ops.map Prod.fst

/-- The names that every set starts with. -/
def builtinNames : List String := ["default", "padLeft", "padRight", "fit", "format"]

/-- The names among some entries that are none of the given ones, each where it comes first. -/
def newNames (known : List String) (added : List (String × Operator)) : List String :=
  ((added.map Prod.fst).filter fun name => name ∉ known).eraseDups

/-- The operator that was added last under a name, or else the one that the set starts with. -/
def current (ops : Operators) (added : List (String × Operator)) (name : String) :
    Option Operator :=
  ((added.findRev? fun entry => entry.1 = name).map Prod.snd).or (ops.get? name)

/-- The answer to a request, and the operators behind it. -/
def answer [Host] (ops : Operators) : Request → Answer × Operators
  | .add candidate =>
    match ops.add candidate with
    | .ok more => (.added, more)
    | .error why => (.rejected why, ops)
  | .find name => (.found (ops.get? name), ops)
  | .run v operations => (.value (ops.run v operations), ops)
  | .expand policy template data => (.text (Expander.expand ⟨ops, policy⟩ template data), ops)

/-- The operators that there are behind some requests. -/
def after [Host] (ops : Operators) (requests : List Request) : Operators :=
  requests.foldl (fun ops request => (ops.answer request).2) ops

theorem names_builtin (pattern : Value) : (builtin pattern).names = builtinNames := rfl

@[simp] theorem names_cons (entry : String × Operator) (rest : Operators) :
    names (entry :: rest) = entry.1 :: names rest := rfl

@[simp] theorem after_cons [Host] (ops : Operators) (request : Request)
    (requests : List Request) :
    ops.after (request :: requests) = (ops.answer request).2.after requests := rfl

/-- The operators that there are when some entries have been put in, one after another. -/
def putAll (ops : Operators) (added : List (String × Operator)) : Operators :=
  added.foldl (fun ops entry => ops.put entry.1 entry.2) ops

@[simp] theorem putAll_cons (ops : Operators) (entry : String × Operator)
    (added : List (String × Operator)) :
    ops.putAll (entry :: added) = (ops.put entry.1 entry.2).putAll added := rfl

/-! ### One operator more -/

theorem get?_put_self (name : String) (op : Operator) (ops : Operators) :
    (ops.put name op).get? name = some op := by
  induction ops with
  | nil => rw [put, get?, if_pos rfl]
  | cons entry rest ih =>
      rw [put]
      split
      · rw [get?, if_pos rfl]
      · next hname => rw [get?, if_neg hname, ih]

theorem get?_put_of_ne (h : other ≠ name) (op : Operator) (ops : Operators) :
    (ops.put name op).get? other = ops.get? other := by
  induction ops with
  | nil => exact if_neg h.symm
  | cons entry rest ih =>
      rw [put]
      split
      · next hname => rw [get?, get?, if_neg h.symm, if_neg (hname ▸ h.symm)]
      · rw [get?, get?, ih]

theorem names_put (name : String) (op : Operator) (ops : Operators) :
    (ops.put name op).names = if name ∈ ops.names then ops.names else ops.names ++ [name] := by
  induction ops with
  | nil => rfl
  | cons entry rest ih =>
      rw [put]
      by_cases hentry : entry.1 = name
      · rw [if_pos hentry, names_cons, names_cons, if_pos (hentry ▸ List.mem_cons_self), hentry]
      · rw [if_neg hentry, names_cons, names_cons, ih]
        by_cases hrest : name ∈ names rest
        · rw [if_pos hrest, if_pos (List.mem_cons_of_mem _ hrest)]
        · have hnew : name ∉ entry.1 :: names rest := by
            simp [hrest, Ne.symm hentry]
          rw [if_neg hrest, if_neg hnew, List.cons_append]

theorem nodup_put (h : ops.names.Nodup) : (ops.put name op).names.Nodup := by
  rw [names_put]
  split
  · exact h
  · next hname =>
    rw [← List.concat_eq_append]
    exact h.concat hname

theorem isSome_get?_iff : (ops.get? name).isSome ↔ name ∈ ops.names := by
  induction ops with
  | nil => simp [get?, names]
  | cons entry rest ih =>
      rw [get?, names_cons, List.mem_cons, ← ih]
      by_cases hentry : entry.1 = name
      · simp [hentry]
      · simp [hentry, Ne.symm hentry]

/-! ### One operator after another -/

theorem newNames_cons (known : List String) (entry : String × Operator)
    (added : List (String × Operator)) :
    newNames known (entry :: added) =
      if entry.1 ∈ known then newNames known added
      else entry.1 :: newNames (known ++ [entry.1]) added := by
  rw [newNames, List.map_cons, List.filter_cons]
  by_cases hknown : entry.1 ∈ known
  · simp [hknown, newNames]
  · simp only [hknown, not_false_eq_true, decide_true, if_true, if_false, newNames,
      List.eraseDups_cons, List.filter_filter]
    -- What is new beside the known names and this one is what is new and not this one again.
    congr 2
    refine List.filter_congr fun other _ => ?_
    by_cases hother : other = entry.1 <;> simp [hother]

theorem names_putAll (ops : Operators) (added : List (String × Operator)) :
    (ops.putAll added).names = ops.names ++ newNames ops.names added := by
  induction added generalizing ops with
  | nil => exact (List.append_nil _).symm
  | cons entry added ih =>
      rw [putAll_cons, ih, newNames_cons, names_put]
      split
      · rfl
      · rw [List.append_assoc, List.singleton_append]

theorem nodup_putAll (h : ops.names.Nodup) (added : List (String × Operator)) :
    (ops.putAll added).names.Nodup := by
  induction added generalizing ops with
  | nil => exact h
  | cons entry added ih => exact ih (nodup_put h)

theorem current_cons (ops : Operators) (entry : String × Operator)
    (added : List (String × Operator)) :
    ops.current (entry :: added) = (ops.put entry.1 entry.2).current added := by
  funext name
  rw [current, current, List.findRev?_eq_find?_reverse, List.findRev?_eq_find?_reverse,
    List.reverse_cons, List.find?_append]
  by_cases hname : name = entry.1
  · subst hname
    rw [get?_put_self]
    cases added.reverse.find? fun other => decide (other.1 = entry.1) <;> simp
  · rw [get?_put_of_ne hname]
    cases added.reverse.find? fun other => decide (other.1 = name) <;> simp [Ne.symm hname]

/-- A name finds what was put in last under it. -/
theorem get?_putAll (ops : Operators) (added : List (String × Operator)) (name : String) :
    (ops.putAll added).get? name = ops.current added name := by
  -- What is put in first belongs to the set from which the others go on, `current_cons`.
  induction added generalizing ops with
  | nil => rfl
  | cons entry added ih => rw [putAll_cons, ih, current_cons]

/-! ### One request after another -/

variable [Host]

/-- A request changes the set by what it adds, if it adds anything. -/
theorem answer_eq_putAll (ops : Operators) (request : Request) :
    (ops.answer request).2 = ops.putAll request.entry?.toList := by
  cases request with
  | add candidate => cases candidate <;> rfl
  | find | run | expand => rfl

/-- Behind some requests there is what they add, and nothing else has changed. -/
theorem after_eq_putAll (ops : Operators) (requests : List Request) :
    ops.after requests = ops.putAll (entries requests) := by
  induction requests generalizing ops with
  | nil => rfl
  | cons request requests ih =>
      rw [after_cons, ih, answer_eq_putAll, entries, entries]
      cases hentry : request.entry? with
      | none =>
          rw [List.filterMap_cons_none hentry]
          rfl
      | some entry =>
          rw [List.filterMap_cons_some hentry]
          rfl

/-! ### Operators that are found alike -/

theorem run_cons (ops : Operators) (v : Value) (operation : Operation)
    (operations : List Operation) :
    ops.run v (operation :: operations) =
      ops.applyOne v operation >>= fun next => ops.run next operations := by
  rw [run, List.foldlM_cons]
  rfl

theorem run_eq_applyEach (ops : Operators) (v : Value) (operations : List Operation) :
    ops.run v operations = applyEach v (lookups (fun name => ops.get? name) operations) := by
  induction operations generalizing v with
  | nil => rfl
  | cons operation operations ih =>
      rw [run_cons, applyOne, lookups, List.filterMap_cons]
      cases ops.get? operation.1 with
      | none => exact ih v
      | some op =>
          rw [Option.map_some, applyEach, List.foldlM_cons]
          exact congrArg (op.apply v operation.2 >>= ·) (funext ih)

/-- Operations without an operator might as well be left out. -/
theorem run_filter_names (ops : Operators) (v : Value) (operations : List Operation) :
    ops.run v (operations.filter fun operation => operation.1 ∈ ops.names) =
      ops.run v operations := by
  rw [run_eq_applyEach, run_eq_applyEach, lookups, lookups, List.filterMap_filter]
  congr 1
  refine List.filterMap_congr fun operation _ => ?_
  by_cases hname : operation.1 ∈ ops.names
  · simp [hname]
  · rw [← isSome_get?_iff, Option.not_isSome_iff_eq_none] at hname
    simp [hname]

end Operators

namespace Expander

variable [Host] {ops ops' : Operators} {policy : EmptyPolicy}

theorem expand_of_get?_eq (h : ∀ name, ops.get? name = ops'.get? name) (template data : Value) :
    expand ⟨ops, policy⟩ template data = expand ⟨ops', policy⟩ template data := by
  have hfind : (fun name => ops.get? name) = fun name => ops'.get? name := funext h
  have hpiece : pieceText ⟨ops, policy⟩ data = pieceText ⟨ops', policy⟩ data := by
    funext piece
    cases piece with
    | char c => rfl
    | token t =>
        rw [pieceText, pieceText, tokenText, tokenText, Operators.run_eq_applyEach,
          Operators.run_eq_applyEach, hfind]
  have hpieces : ∀ pieces, piecesText ⟨ops, policy⟩ data pieces =
      piecesText ⟨ops', policy⟩ data pieces := by
    intro pieces
    induction pieces with
    | nil => rfl
    | cons piece pieces ih => rw [piecesText, piecesText, hpiece, ih]
  have htext : expandText ⟨ops, policy⟩ data = expandText ⟨ops', policy⟩ data :=
    funext fun cs => hpieces (Piece.cut cs)
  rw [expand, expand, htext]

end Expander

namespace Operators

variable [Host]

/-- An answer is given with the operators as they are found, and only an operator that is taken in
changes them. -/
theorem answer_cases (ops : Operators) (request : Request) :
    Answered (fun name => ops.get? name) request (ops.answer request).1 ∧
      (request.entry? = none → (ops.answer request).2 = ops) := by
  constructor
  · cases request with
    | add candidate =>
        cases candidate with
        | operator name op => exact .added
        | other => exact .rejected
    | find name => exact .found
    | run v operations =>
        rw [answer, run_eq_applyEach]
        exact .value
    | expand policy template data =>
        exact .text fun _ hfind => Expander.expand_of_get?_eq hfind template data
  · intro hentry
    rw [answer_eq_putAll, hentry]
    rfl

/-- Behind any requests there are the first operators and the new ones, in the order in which their
names came first. A name finds what was added last under it, answers are given with what is found,
and operations whose names are not among them change no result. -/
theorem answers_after (pattern : Value) (requests : List Request) :
    let ops := (builtin pattern).after requests
    let find := (builtin pattern).current (entries requests)
    (ops.names = builtinNames ++ newNames builtinNames (entries requests) ∧ ops.names.Nodup) ∧
      (∀ name, ops.get? name = find name) ∧
      (∀ request, Answered find request (ops.answer request).1 ∧
        (request.entry? = none → (ops.answer request).2 = ops)) ∧
      ∀ v operations, ops.run v (operations.filter fun operation => operation.1 ∈ ops.names) =
        ops.run v operations := by
  intro ops find
  have hops : ops = (builtin pattern).putAll (entries requests) := after_eq_putAll _ _
  have hfind : ∀ name, ops.get? name = find name := by
    intro name
    rw [hops]
    exact get?_putAll _ _ name
  have hfirst : (builtin pattern).names.Nodup := by
    rw [names_builtin]
    decide
  refine ⟨⟨?_, ?_⟩, hfind, ?_, run_filter_names ops⟩
  · rw [hops]
    exact names_putAll _ _
  · rw [hops]
    exact nodup_putAll hfirst _
  · have hfound : (fun name => ops.get? name) = find := funext hfind
    rw [← hfound]
    exact answer_cases ops

omit [Host] in
/-- A new operator, something that is none, one in the place of another and the new one again. -/
theorem answers_after_replaced :
    letI := Host.standard 2025
    let requests : List Request := [.add (.operator "upper" .upper), .add .other,
      .add (.operator "fit" (.pad true)), .find "upper", .add (.operator "upper" .default)]
    let ops := (builtin (.text "%x %X")).after requests
    ops.names = ["default", "padLeft", "padRight", "fit", "format", "upper"] ∧
      ops.get? "fit" = some (.pad true) ∧ ops.get? "upper" = some .default ∧
      (ops.answer (.add .other)).2 = ops ∧
      ops.run (.text "ab") [("fit", some "4,*")] =
        ops.run (.text "ab") [("lower", none), ("fit", some "4,*")] := by
  let host := Host.standard 2025
  intro requests ops
  obtain ⟨⟨hnames, -⟩, hfind, hanswer, hrun⟩ := answers_after (.text "%x %X") requests
  refine ⟨hnames, hfind "fit", hfind "upper", (hanswer (.add .other)).2 rfl, ?_⟩
  exact hrun (.text "ab") [("lower", none), ("fit", some "4,*")]

end Operators
end Receipt.Template
