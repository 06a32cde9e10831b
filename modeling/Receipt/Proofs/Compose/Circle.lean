import Mathlib.Data.List.Chain
import Mathlib.Data.List.Nodup
import Receipt.Build
import Receipt.Host.Standard
import Receipt.Proofs.Compose.Agreement
import Receipt.Proofs.Layout.Registry

/-!
# A circle that is reported is one

The sections around the rows being composed are linked: each mentions the next, in its own rows or
in rows that lie in them, and the last mentions whatever is mentioned in the rows at hand. `Traced`
is this invariant; a group and an iterator keep it, and a reference carries it on. Where a
reference is refused, it closes a circle of sections that are otherwise distinct.
-/
namespace Receipt

/-- A row refers to a section, or rows in it do. -/
inductive Row.Mentions (ref : String) : Row → Prop
  | here : Mentions ref (.sectionRef ref)
  | group {children : List Row} {row : Row} (mem : row ∈ children) (h : Mentions ref row) :
      Mentions ref (.group children)
  | iterator {path : String} {rows : List Row} {row : Row} (mem : row ∈ rows)
      (h : Mentions ref row) : Mentions ref (.iterator path rows)

namespace Registry

/-- A declared section mentions a name. -/
def References (registry : Registry) (name ref : String) : Prop :=
  ∃ layout, registry.get? name = some layout ∧ ∃ row ∈ layout.rows, row.Mentions ref

/-- The names lead from a section, by references, back to one of them. -/
structure IsCircle (registry : Registry) (first : String) (names : List String) : Prop where
  first : names.head? = some first
  declared : ∀ name ∈ names, registry.get? name ≠ none
  linked : names.IsChain registry.References
  distinct : names.dropLast.Nodup
  closed : ∃ last ∈ names.dropLast, names.getLast? = some last

end Registry

namespace Compose.Env
open Filter
variable {env : Env}

/-- The sections around some rows, from the first, are linked up to the rows. -/
structure Traced (env : Env) (first : String) (chain : List String) (rows : List Row) : Prop where
  first : chain.head? = some first
  declared : ∀ name ∈ chain, env.registry.get? name ≠ none
  linked : chain.IsChain env.registry.References
  distinct : env.settings.guarded = true → chain.Nodup
  mentions : ∀ row ∈ rows, ∀ ref, row.Mentions ref →
    ∀ last ∈ chain.getLast?, env.registry.References last ref

namespace Traced
variable {first : String} {chain : List String} {rows : List Row}

theorem linked_append (h : env.Traced first chain rows) {row : Row} (hrow : row ∈ rows)
    {ref : String} (href : row.Mentions ref) :
    (chain ++ [ref]).IsChain env.registry.References := by
  rw [List.isChain_append]
  refine ⟨h.linked, List.isChain_singleton ref, fun last hlast name hname => ?_⟩
  cases hname
  exact h.mentions row hrow ref href last hlast

theorem first_append (h : env.Traced first chain rows) (ref : String) :
    (chain ++ [ref]).head? = some first := by
  rw [List.head?_append, h.first]
  rfl

theorem declared_append (h : env.Traced first chain rows) {ref : String}
    (found : env.registry.get? ref ≠ none) :
    ∀ name ∈ chain ++ [ref], env.registry.get? name ≠ none := by
  intro name hname
  rcases List.mem_append.1 hname with hname | hname
  · exact h.declared name hname
  · rw [List.mem_singleton.1 hname]
    exact found

/-- The invariant holds where a row leads. -/
theorem opens (h : env.Traced first chain rows) {row : Row} (hrow : row ∈ rows)
    {next : List String × List Row} (hnext : next ∈ env.opens chain row) :
    env.Traced first next.1 next.2 := by
  cases row with
  | text | barcode | passthrough => cases hnext
  | group children =>
      cases hnext
      exact { h with mentions := fun row hmem ref href => h.mentions _ hrow ref (.group hmem href) }
  | iterator path rows =>
      cases hnext
      exact { h with
        mentions := fun row hmem ref href => h.mentions _ hrow ref (.iterator hmem href) }
  | sectionRef ref =>
      simp only [Env.opens] at hnext
      split at hnext
      · cases hnext
      · next layout found =>
        split at hnext
        · cases hnext
        · next fresh =>
          cases hnext
          constructor
          case first => exact h.first_append ref
          case declared => exact h.declared_append (by simp [found])
          case linked => exact h.linked_append hrow .here
          case distinct =>
            intro hguarded
            rw [← List.concat_eq_append]
            exact (h.distinct hguarded).concat fun hmem => fresh ⟨hguarded, hmem⟩
          case mentions =>
            intro row hmem ref' href last hlast
            rw [List.getLast?_append, List.getLast?_singleton, Option.some_or] at hlast
            cases hlast
            exact ⟨layout, found, row, hmem, href⟩

/-- A reference that is refused closes a circle. -/
theorem circle (h : env.Traced first chain rows) {row : Row} (hrow : row ∈ rows) {ref : String}
    (hcloses : env.Closes chain row ref) : env.registry.IsCircle first (chain ++ [ref]) := by
  obtain ⟨rfl, declared, guarded, around⟩ := hcloses
  constructor
  case first => exact h.first_append ref
  case declared => exact h.declared_append declared
  case linked => exact h.linked_append hrow .here
  case distinct =>
    rw [List.dropLast_concat]
    exact h.distinct guarded
  case closed =>
    refine ⟨ref, ?_, List.getLast?_concat⟩
    rw [List.dropLast_concat]
    exact around

/-- Composing rows within sections that are linked reports circles only. -/
theorem circle_of_within [Host] {n level : Nat} {data : Value} {names : List String}
    (h : env.Traced first chain rows)
    (hcyclic : env.within n chain level data rows = .error (.cyclic names)) :
    env.registry.IsCircle first names := by
  induction n generalizing chain level data rows with
  | zero => cases hcyclic
  | succ n ih =>
      rcases within_eq_error hcyclic with hlevel | ⟨-, row, hrow, hfails⟩
      · obtain ⟨_, _, _, _, htooDeep⟩ := checkLevel_eq_error hlevel
        cases htooDeep
      · rcases rowWith_eq_error hfails with ⟨_, htemplate⟩ | ⟨ref, hcloses, hnames⟩ | hinside
        · cases htemplate
        · cases hnames
          exact h.circle hrow hcloses
        · obtain ⟨next, hnext, data', -, hinside⟩ := hinside
          exact ih (h.opens hrow hnext) hinside

/-- The rows of a declared section are linked to it. -/
theorem start {name : String} {layout : Layout} (found : env.registry.get? name = some layout) :
    env.Traced name [name] layout.rows where
  first := rfl
  declared := by simp [found]
  linked := List.isChain_singleton name
  distinct := fun _ => List.nodup_singleton name
  mentions := by
    intro row hrow ref href last hlast
    cases hlast
    exact ⟨layout, found, row, hrow, href⟩

end Traced

theorem startChain_nil {layout : Layout} {name : String} (h : layout.name = some name)
    (hname : name ≠ "") : startChain layout [] = [name] := by
  simp [startChain, h, hname]

theorem circle_of_compose [Host] {layout : Layout} {name : String} {data : Value} {names : List String}
    (found : env.registry.get? name = some layout) (hnamed : layout.name = some name)
    (hname : name ≠ "") (hcyclic : env.compose layout data [] = .error (.cyclic names)) :
    env.registry.IsCircle name names := by
  obtain ⟨n, hn⟩ := (eventually_layoutWithin layout data []).exists
  rw [← hn, layoutWithin, startChain_nil hnamed hname] at hcyclic
  exact (Traced.start found).circle_of_within hcyclic

end Compose.Env

/-- Building a section from a registry that has still to be read reports a circle only where its
sections refer to one another in one, and the circle is found from the section that is built. -/
theorem circle_of_buildFrom [Host] {settings : Settings} {raw data : Value} {name : String}
    {names : List String} (hname : name ≠ "")
    (h : buildFrom settings raw name data = .error (.composition (.cyclic names))) :
    ∃ registry, Registry.ofValue raw = .ok registry ∧ registry.IsCircle name names := by
  unfold buildFrom at h
  split at h
  · cases h
  · next registry hread =>
    refine ⟨registry, hread, ?_⟩
    unfold build at h
    split at h
    · cases h
    · next layout found =>
      have hnamed := Registry.name_of_get?_ofValue hread found
      cases hcompose : Compose.Env.compose ⟨settings, registry⟩ layout data [] with
      | error e =>
          rw [hcompose] at h
          cases h
          exact Compose.Env.circle_of_compose found hnamed hname hcompose
      | ok elements =>
          rw [hcompose] at h
          cases h

/-- Two sections, each of which refers to the other, the second from a group. -/
def mutualSections : Value :=
  let reference (name : String) : Value :=
    .map [(.text "type", .text "sectionref"), (.text "ref", .text name)]
  .map [(.text "A", .map [(.text "rows", .list [reference "B"])]),
    (.text "B", .list [.map [(.text "type", .text "row"),
      (.text "children", .list [reference "A"])]])]

def mutualRegistry : Registry :=
  [(.text "A", ⟨[.sectionRef "B"], some "A"⟩), (.text "B", ⟨[.group [.sectionRef "A"]], some "B"⟩)]

theorem ofValue_mutualSections : Registry.ofValue mutualSections = .ok mutualRegistry := by
  rfl

theorem mutualSections_cyclic [Host] : buildFrom .standard mutualSections "A" .null =
    .error (.composition (.cyclic ["A", "B", "A"])) := by
  have hwithin : Compose.Env.layoutWithin ⟨.standard, mutualRegistry⟩ 4
      ⟨[.sectionRef "B"], some "A"⟩ .null [] = .error (.cyclic ["A", "B", "A"]) := by
    rfl
  have hcompose := Compose.Env.compose_eq_layoutWithin (n := 4) (by rw [hwithin]; nofun)
  rw [buildFrom, ofValue_mutualSections]
  simp only [build, mutualRegistry, Registry.get?, if_true]
  rw [mutualRegistry] at hwithin hcompose
  rw [hcompose, hwithin]
  rfl

theorem circle_of_buildFrom_mutualSections :
    letI := Host.standard 2025
    ("A" ≠ "" ∧ buildFrom .standard mutualSections "A" .null =
      .error (.composition (.cyclic ["A", "B", "A"]))) ∧
    ∃ registry, Registry.ofValue mutualSections = .ok registry ∧
      registry.IsCircle "A" ["A", "B", "A"] :=
  let host := Host.standard 2025
  ⟨⟨by decide, mutualSections_cyclic⟩, circle_of_buildFrom (by decide) mutualSections_cyclic⟩

end Receipt
