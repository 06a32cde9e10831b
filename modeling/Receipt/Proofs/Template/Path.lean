import Receipt.Template.Path

/-!
# Where a path leads

`Stored` says which value another one holds at a path, from the text of the path alone: what stands
before the first point is a name, also if it is empty, and what stands behind it is a path from
there. A path finds what is stored there, or `missing` if nothing is: `resolve_eq_iff`. So nothing
is found behind a value that is no map, and a joined path is followed through its two parts:
`resolve_joined`.
-/
namespace Receipt.Template

variable {v w : Value} {members : Members} {name path : String}

/-- A value holds another one at a path. -/
inductive Stored : Value → String → Value → Prop
  | name {members : Members} {name : String} {w : Value} (plain : '.' ∉ name.toList)
      (found : members.get? name = some w) : Stored (.map members) name w
  | joined {members : Members} {name rest : String} {u w : Value} (plain : '.' ∉ name.toList)
      (found : members.get? name = some u) (h : Stored u rest w) :
      Stored (.map members) (name ++ "." ++ rest) w

/-- A path is a name, or a name in front of a point and a path. -/
@[elab_as_elim]
theorem path_induction {motive : String → Prop}
    (name : ∀ name, '.' ∉ name.toList → motive name)
    (joined : ∀ name rest, '.' ∉ name.toList → motive rest → motive (name ++ "." ++ rest))
    (path : String) : motive path := by
  by_cases hpoint : '.' ∈ path.toList
  · -- The first point ends the first name.
    obtain ⟨front, back, hpath, hfront⟩ := List.eq_append_cons_of_mem hpoint
    have hlength : back.length < path.length := by
      rw [← String.length_toList, hpath, List.length_append, List.length_cons]
      omega
    have hjoined : path = String.ofList front ++ "." ++ String.ofList back := by
      rw [← String.toList_inj, hpath]
      simp
    rw [hjoined]
    apply joined
    · rwa [String.toList_ofList]
    · exact path_induction name joined (String.ofList back)
  · exact name path hpoint
termination_by path.length
decreasing_by rwa [String.length_ofList]

/-! ### One name, and two paths -/

theorem enter_of_get? (h : members.get? name = some w) : enter (.map members) name = w := by
  rw [enter, Value.get?, h, Option.getD_some]

theorem enter_cases (v : Value) (name : String) :
    (∃ members w, v = .map members ∧ Members.get? name members = some w) ∨
      enter v name = .missing := by
  cases v with
  | map members =>
      cases h : Members.get? name members with
      | some w => exact .inl ⟨members, w, rfl, h⟩
      | none =>
          right
          rw [enter, Value.get?, h, Option.getD_none]
  | _ => exact .inr rfl

theorem resolve_name (v : Value) (h : '.' ∉ name.toList) : resolve v name = enter v name := by
  rw [resolve, pathNames, Text.splitOn_eq_singleton h, List.map_singleton, String.ofList_toList]
  rfl

theorem resolve_append (v : Value) (p q : String) :
    resolve v (p ++ "." ++ q) = resolve (resolve v p) q := by
  rw [resolve, pathNames_append, follow_append]
  rfl

theorem resolve_missing (path : String) : resolve .missing path = .missing :=
  follow_missing (pathNames path)

/-! ### What is found -/

theorem Stored.resolve_eq (h : Stored v path w) : resolve v path = w := by
  induction h with
  | name plain found => rw [resolve_name _ plain, enter_of_get? found]
  | joined plain found _ ih => rw [resolve_append, resolve_name _ plain, enter_of_get? found, ih]

theorem exists_stored_or (v : Value) (path : String) :
    (∃ w, Stored v path w) ∨ resolve v path = .missing := by
  -- Along the path, for all values at once: every name leads into another one.
  induction path using path_induction generalizing v with
  | name name plain =>
      rcases enter_cases v name with ⟨members, w, rfl, found⟩ | hmissing
      · exact .inl ⟨w, .name plain found⟩
      · right
        rw [resolve_name v plain, hmissing]
  | joined name rest plain ih =>
      rw [resolve_append, resolve_name v plain]
      rcases enter_cases v name with ⟨members, u, rfl, found⟩ | hmissing
      · rw [enter_of_get? found]
        exact (ih u).imp_left fun ⟨w, h⟩ => ⟨w, .joined plain found h⟩
      · right
        rw [hmissing, resolve_missing]

/-- A path finds what is stored there, and `missing` if nothing is. -/
theorem resolve_eq_iff :
    resolve v path = w ↔ Stored v path w ∨ w = .missing ∧ ∀ u, ¬ Stored v path u := by
  constructor
  · rintro rfl
    by_cases hstored : ∃ u, Stored v path u
    · obtain ⟨u, hu⟩ := hstored
      left
      rwa [hu.resolve_eq]
    · right
      exact ⟨(exists_stored_or v path).resolve_left hstored, not_exists.1 hstored⟩
  · rintro (hstored | ⟨rfl, hnot⟩)
    · exact hstored.resolve_eq
    · exact (exists_stored_or v path).resolve_left (not_exists.2 hnot)

/-- Nothing is stored in a value that is no map. -/
theorem resolve_of_not_map (h : ∀ members, v ≠ .map members) (path : String) :
    resolve v path = .missing := by
  have hnot : ∀ u, ¬ Stored v path u := by
    intro u hstored
    cases hstored with
    | name _ _ | joined _ _ _ => exact h _ rfl
  exact resolve_eq_iff.2 (.inr ⟨rfl, hnot⟩)

/-- A joined path is followed through its two parts, and nothing is found in `missing`. Where a
value that is no map is met with a name still to follow, at the end of the first part or at the
start, `missing` is found. At its end a path finds the stored value itself, and `missing` only if
nothing is stored there or the stored value is `missing`. -/
theorem resolve_joined (v : Value) (p q : String) :
    resolve v (p ++ "." ++ q) = resolve (resolve v p) q ∧
      resolve .missing q = .missing ∧
      (∀ u, Stored v p u → (∀ members, u ≠ .map members) →
        resolve v (p ++ "." ++ q) = .missing) ∧
      ((∀ members, v ≠ .map members) → resolve v q = .missing) ∧
      ∀ w, resolve v p = w ↔ Stored v p w ∨ w = .missing ∧ ∀ u, ¬ Stored v p u := by
  refine ⟨resolve_append v p q, resolve_missing q, ?_, ?_, fun w => resolve_eq_iff⟩
  · intro u hstored hu
    rw [resolve_append, hstored.resolve_eq]
    exact resolve_of_not_map hu q
  · intro hv
    exact resolve_of_not_map hv q

/-- Empty names lead to a null; more of them find nothing behind it. -/
theorem resolve_joined_empty_names :
    let data : Value := .map [(.text "", .map [(.text "", .null)])]
    Stored data "." .null ∧ (∀ members, Value.null ≠ .map members) ∧
      resolve data "..." = .missing ∧ resolve .null ".." = .missing := by
  intro data
  have hnull : ∀ members, Value.null ≠ .map members := nofun
  have hstored : Stored data ("" ++ "." ++ "") .null :=
    .joined (by decide) rfl (.name (by decide) rfl)
  obtain ⟨-, -, hbehind, -, -⟩ := resolve_joined data "." "."
  obtain ⟨-, -, -, hstart, -⟩ := resolve_joined .null "." ".."
  exact ⟨hstored, hnull, hbehind .null hstored hnull, hstart hnull⟩

end Receipt.Template
