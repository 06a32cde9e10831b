import Receipt.Host.Standard
import Receipt.Proofs.Compose.Agreement

/-!
# A reference stands for the rows of its section

`Registry.Inlined` puts the rows of a section in the place of one reference to it, at any depth.
What composes to elements without a limit does so afterwards, and to the same ones:
`compose_inlined`. For the inlined rows lie one level higher, which nothing looks at, and there are
fewer sections around them, so that no reference becomes a circle: `within_outside`.
-/
namespace Receipt

/-- One reference, among the rows or in them, has become the rows of its section. A reference to a
section that is not declared, because it is absent or null (`Registry.exists_member_of_get?`), has
become no rows. -/
inductive Registry.Inlined (registry : Registry) : List Row → List Row → Prop
  | declared {ref : String} {layout : Layout} (found : registry.get? ref = some layout)
      (before after : List Row) :
      Inlined registry (before ++ .sectionRef ref :: after) (before ++ (layout.rows ++ after))
  | undeclared {ref : String} (missing : registry.get? ref = none) (before after : List Row) :
      Inlined registry (before ++ .sectionRef ref :: after) (before ++ after)
  | group {children children' : List Row} (before after : List Row)
      (h : Inlined registry children children') :
      Inlined registry (before ++ .group children :: after) (before ++ .group children' :: after)
  | iterator {path : String} {rows rows' : List Row} (before after : List Row)
      (h : Inlined registry rows rows') :
      Inlined registry (before ++ .iterator path rows :: after)
        (before ++ .iterator path rows' :: after)

namespace Compose

theorem gather_append {α : Type} (f : α → Outcome) (as bs : List α) :
    gather f (as ++ bs) = (gather f as).bind fun here => (gather f bs).map (here ++ ·) := by
  induction as with
  | nil =>
      show gather f bs = (gather f bs).map ([] ++ ·)
      cases gather f bs <;> rfl
  | cons a as ih =>
      rw [List.cons_append, gather_cons, gather_cons, ih]
      cases f a with
      | error e => rfl
      | ok here =>
          cases gather f as with
          | error e => rfl
          | ok more =>
              cases gather f bs with
              | error e => rfl
              | ok last => simp [Except.bind, Except.map]

theorem gather_singleton {α : Type} (f : α → Outcome) (a : α) : gather f [a] = f a := by
  rw [gather_cons]
  cases f a with
  | error e => rfl
  | ok here => simp [gather, Except.bind, Except.map]

/-- Members may take the place of one member that they come out as. -/
theorem gather_splice {α : Type} {bad : Error → Prop} {f : α → Outcome} {a : α} {as : List α}
    (h : Unless bad (f a) (gather f as)) (before after : List α) :
    Unless bad (gather f (before ++ a :: after)) (gather f (before ++ (as ++ after))) := by
  rw [gather_append, gather_append, gather_cons, gather_append]
  refine (Unless.of_eq rfl).bind fun here => ?_
  apply Unless.map
  exact h.bind fun there => .of_eq rfl

theorem gather_replace {α : Type} {bad : Error → Prop} {f : α → Outcome} {a b : α}
    (h : Unless bad (f a) (f b)) (before after : List α) :
    Unless bad (gather f (before ++ a :: after)) (gather f (before ++ b :: after)) := by
  rw [← gather_singleton f b] at h
  exact gather_splice h before after

/-- Any failure at all. -/
def OfAny (_ : Error) : Prop := True

namespace Env
variable [Host] {env : Env}

/-- Rows that compose to elements do so as well one level higher and with fewer sections around
them. -/
theorem within_outside (hlimit : env.settings.limit? = none) (n : Nat) (chain : List String)
    (name : String) (level : Nat) (data : Value) (rows : List Row) :
    Unless OfAny (env.within n (chain ++ [name]) (level + 1) data rows)
      (gather (env.rowWith (env.within n) chain level data) rows) := by
  have hfewer : Fewer OfAny (chain ++ [name]) chain :=
    .inr ⟨List.subset_append_left chain [name], fun _ => trivial⟩
  have hlevel := env.checkLevel_of_unlimited hlimit level
  have hhigher : env.within (n + 1) chain level data rows =
      gather (env.rowWith (env.within n) chain level data) rows := by
    rw [within_succ, hlevel]
    rfl
  rw [← hhigher, within_of_unlimited hlimit n (.inl rfl) (level + 1) level]
  exact within_unless (.refl OfAny env) (.inr ⟨n.le_succ, trivial⟩) hfewer level data rows

theorem within_of_gather (hlimit : env.settings.limit? = none) {rows rows' : List Row}
    (h : ∀ (n : Nat) (chain : List String) (level : Nat) (data : Value),
      Unless OfAny (gather (env.rowWith (env.within n) chain level data) rows)
        (gather (env.rowWith (env.within n) chain level data) rows'))
    (n : Nat) (chain : List String) (level : Nat) (data : Value) :
    Unless OfAny (env.within n chain level data rows) (env.within n chain level data rows') := by
  cases n with
  | zero => exact .of_eq rfl
  | succ n =>
      rw [within_succ, within_succ, checkLevel_of_unlimited hlimit]
      exact h n chain level data

theorem gather_inlined (hlimit : env.settings.limit? = none) {rows rows' : List Row}
    (h : env.registry.Inlined rows rows') (n : Nat) (chain : List String) (level : Nat)
    (data : Value) :
    Unless OfAny (gather (env.rowWith (env.within n) chain level data) rows)
      (gather (env.rowWith (env.within n) chain level data) rows') := by
  induction h generalizing n chain level data with
  | @declared ref layout found before after =>
      apply gather_splice
      by_cases hcyclic : env.settings.guarded ∧ ref ∈ chain
      · simp only [rowWith, found, if_pos hcyclic]
        exact .of_bad trivial _
      · rw [rowWith_section found hcyclic]
        exact within_outside hlimit n chain ref level data layout.rows
  | @undeclared ref missing before after =>
      have hnothing : Unless OfAny (env.rowWith (env.within n) chain level data (.sectionRef ref))
          (gather (env.rowWith (env.within n) chain level data) []) := by
        simp only [rowWith, missing]
        exact .of_eq rfl
      exact gather_splice hnothing before after
  | group before after h ih =>
      apply gather_replace
      rw [rowWith_group, rowWith_group]
      exact (within_of_gather hlimit ih n chain (level + 1) data).map _
  | iterator before after h ih =>
      apply gather_replace
      rw [rowWith, rowWith]
      split
      · exact gather_unless fun item _ => within_of_gather hlimit ih n chain (level + 1) item
      · exact .of_eq rfl

/-- A layout that composes to elements without a limit composes to the same elements when a
reference in it has become the rows of its section. -/
theorem compose_inlined {layout : Layout} {rows : List Row} {data : Value} {chain : List String}
    {es : List Element} (unlimited : env.settings.maxDepth = none)
    (inlined : env.registry.Inlined layout.rows rows)
    (h : env.compose layout data chain = .ok es) :
    env.compose { layout with rows := rows } data chain = .ok es := by
  have hlimit : env.settings.limit? = none := by
    rw [Settings.limit?, unlimited]
    rfl
  obtain ⟨n, hn⟩ := (eventually_layoutWithin layout data chain).exists
  have hwithin : env.within n (startChain layout chain) 0 data layout.rows = .ok es := hn.trans h
  have hsame := within_of_gather hlimit (gather_inlined hlimit inlined) n
    (startChain layout chain) 0 data
  have hok : env.layoutWithin n { layout with rows := rows } data chain = .ok es := by
    rw [← hwithin]
    apply hsame
    rw [hwithin]
    nofun
  exact compose_eq_of_layoutWithin hok nofun

/-- A section of a line and a reference to a section that is not declared. -/
def lineRegistry : Registry :=
  [(.text "B", ⟨[.passthrough [(.text "type", .text "horizontalline")], .sectionRef "C"],
    some "B"⟩)]

omit [Host] in
theorem compose_inlined_line :
    letI := Host.standard 2025
    let env : Env := ⟨{ Settings.standard with maxDepth := none }, lineRegistry⟩
    let line : Row := .passthrough [(.text "type", .text "horizontalline")]
    let layout : Layout := ⟨[.group [.iterator "items" [.sectionRef "B"]]], some "A"⟩
    let rows : List Row := [.group [.iterator "items" [line, .sectionRef "C"]]]
    let data : Value := .map [(.text "items", .list [.int 1, .null])]
    let printed : Element := .passthrough [(.text "type", .text "horizontalline")]
    (env.settings.maxDepth = none ∧ env.registry.Inlined layout.rows rows ∧
      env.compose layout data [] = .ok [.row [printed, printed] .null]) ∧
    env.compose { layout with rows := rows } data [] = .ok [.row [printed, printed] .null] := by
  let host := Host.standard 2025
  intro env line layout rows data printed
  have found : env.registry.get? "B" = some ⟨[line, .sectionRef "C"], some "B"⟩ := rfl
  have hinlined : env.registry.Inlined layout.rows rows :=
    .group [] [] (.iterator [] [] (.declared found [] []))
  have hwithin : env.layoutWithin 5 layout data [] = .ok [.row [printed, printed] .null] := by
    rfl
  have hok := compose_eq_of_layoutWithin hwithin nofun
  exact ⟨⟨rfl, hinlined, hok⟩, compose_inlined rfl hinlined hok⟩

end Env
end Compose
end Receipt
