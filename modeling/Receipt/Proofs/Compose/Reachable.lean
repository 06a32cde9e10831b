import Mathlib.Logic.Relation
import Receipt.Proofs.Compose.Circle
import Receipt.Proofs.Compose.TwoRuns

/-!
# Only sections that can be reached matter

A section reaches the sections that it refers to, those that they refer to, and so on. Registries
that declare the same sections under all these names give the same when the section is built,
elements, warnings or an error: `build_eq_of_reachable`. So a section may also be built under
another name, if nothing refers to that name.
-/
namespace Receipt
open Relation

namespace Registry

/-- The section that a map holds under a name; one that is null is none. -/
def section? (name : String) : Members → Option Value
  | [] => none
  | (_, .null) :: rest => section? name rest
  | (key, v) :: rest => if key = .text name then some v else section? name rest

/-- A registry that is read declares what the sections of the map are read as. -/
theorem get?_ofMembers {members : Members} {registry : Registry}
    (h : ofMembers members = .ok registry) (name : String) :
    registry.get? name = (section? name members).bind fun v =>
      (Layout.ofValue v (some name)).toOption := by
  fun_induction ofMembers members generalizing registry with
  | case1 =>
      cases h
      rfl
  | case2 key rest ih =>
      obtain ⟨_, -, h⟩ := bind_eq_ok h
      rw [section?]
      exact ih h
  | case3 key v rest hnull ih =>
      obtain ⟨layout, hlayout, hmore⟩ := bind_eq_ok h
      obtain ⟨more, hrest, hcons⟩ := bind_eq_ok hmore
      cases hcons
      rw [get?, section?]
      · by_cases hkey : key = .text name
        · subst hkey
          rw [if_pos rfl, if_pos rfl, Option.bind_some]
          rw [keyName] at hlayout
          rw [hlayout]
          rfl
        · rw [if_neg hkey, if_neg hkey]
          exact ih hrest
      · exact hnull

theorem get?_put_self (name : String) (layout : Layout) (registry : Registry) :
    get? name (put name layout registry) = some layout := by
  induction registry with
  | nil => simp [put, get?]
  | cons entry rest ih =>
      rw [put]
      split
      · simp [get?]
      · next hkey => rw [get?, if_neg hkey, ih]

theorem get?_put_of_ne {name other : String} (h : other ≠ name) (layout : Layout)
    (registry : Registry) : get? other (put name layout registry) = get? other registry := by
  induction registry with
  | nil => simp [put, get?, h.symm]
  | cons entry rest ih =>
      obtain ⟨key, found⟩ := entry
      rw [put]
      split
      · next hkey =>
        have hkey : key = .text name := hkey
        have hne : Key.text name ≠ .text other := fun heq => h (Key.text.inj heq).symm
        rw [get?, get?, hkey, if_neg hne, if_neg hne]
      · rw [get?, get?, ih]

/-- Two registries declare the same under every name that rows lead to. -/
def SameFrom (registry registry' : Registry) (rows : List Row) : Prop :=
  ∀ row ∈ rows, ∀ ref, row.Mentions ref → ∀ name, ReflTransGen registry.References ref name →
    registry'.get? name = registry.get? name

namespace SameFrom
variable {registry registry' : Registry} {rows : List Row}

theorem group (h : SameFrom registry registry' rows) {children : List Row}
    (mem : .group children ∈ rows) : SameFrom registry registry' children :=
  fun _ hrow ref href => h _ mem ref (.group hrow href)

theorem iterator (h : SameFrom registry registry' rows) {path : String} {inner : List Row}
    (mem : .iterator path inner ∈ rows) : SameFrom registry registry' inner :=
  fun _ hrow ref href => h _ mem ref (.iterator hrow href)

theorem reference (h : SameFrom registry registry' rows) {ref : String} {layout : Layout}
    (mem : .sectionRef ref ∈ rows) (found : registry.get? ref = some layout) :
    SameFrom registry registry' layout.rows := by
  intro row hrow ref' href name hname
  have hstep : registry.References ref ref' := ⟨layout, found, row, hrow, href⟩
  exact h _ mem ref .here name (hname.head hstep)

/-- The rows of a section lead to the names that it reaches. -/
theorem of_reachable {name : String} {layout : Layout}
    (h : ∀ other, ReflTransGen registry.References name other →
      registry'.get? other = registry.get? other)
    (found : registry.get? name = some layout) : SameFrom registry registry' layout.rows := by
  intro row hrow ref href other hother
  have hstep : registry.References name ref := ⟨layout, found, row, hrow, href⟩
  exact h other (hother.head hstep)

end SameFrom
end Registry

namespace Compose.Env
variable [Host] {settings : Settings} {registry registry' : Registry}

/-- The same data, at rows that lead to the same sections. -/
def RelatedSections (registry registry' : Registry) : Pairing :=
  fun data data' rows => data' = data ∧ registry.SameFrom registry' rows

theorem alike_of_sameFrom (data : Value) {rows : List Row}
    (h : registry.SameFrom registry' rows) {row : Row} (hrow : row ∈ rows) :
    Alike ⟨settings, registry⟩ ⟨settings, registry'⟩ (RelatedSections registry registry')
      data data row := by
  cases row with
  | text template align flex style => rfl
  | barcode template barcodeType => rfl
  | group children => exact ⟨rfl, h.group hrow⟩
  | iterator path inner => exact ⟨rfl, fun item => ⟨rfl, h.iterator hrow⟩⟩
  | sectionRef ref =>
      have hfound : registry'.get? ref = registry.get? ref := h _ hrow ref .here ref .refl
      exact ⟨hfound, fun layout found => ⟨rfl, h.reference hrow found⟩⟩
  | passthrough payload => trivial

theorem compose_congr (settings : Settings) {layout : Layout}
    (h : registry.SameFrom registry' layout.rows) (data : Value) (chain : List String) :
    compose ⟨settings, registry'⟩ layout data chain =
      compose ⟨settings, registry⟩ layout data chain := by
  have hstep : ∀ data data' rows, RelatedSections registry registry' data data' rows →
      ∀ row ∈ rows, Alike ⟨settings, registry⟩ ⟨settings, registry'⟩
        (RelatedSections registry registry') data data' row := by
    rintro data data' rows ⟨rfl, hsame⟩ row hrow
    exact alike_of_sameFrom data' hsame hrow
  have hrelated : RelatedSections registry registry' data data layout.rows := ⟨rfl, h⟩
  have hsettings : (Env.mk settings registry').settings = (Env.mk settings registry).settings := rfl
  exact compose_alike hsettings hstep hrelated chain

end Compose.Env

section outcomes
variable [Host] {settings : Settings} {registry registry' : Registry} {name : String}

theorem build_eq_of_get? {registry : Registry} {layout : Layout} {elements : Compose.Outcome}
    (found : registry.get? name = some layout) {data : Value}
    (h : Compose.Env.compose ⟨settings, registry⟩ layout data [] = elements) :
    build settings registry name data = elements.map fun es => ⟨es, []⟩ := by
  rw [build, found]
  simp only [h]
  cases elements <;> rfl

theorem build_congr (settings : Settings) (h : ∀ other,
    ReflTransGen registry.References name other → registry'.get? other = registry.get? other)
    (data : Value) : build settings registry' name data = build settings registry name data := by
  have hname := h name .refl
  cases found : registry.get? name with
  | none => rw [build, build, hname, found]
  | some layout =>
      have hsame := Registry.SameFrom.of_reachable h found
      rw [build_eq_of_get? (hname.trans found) (Compose.Env.compose_congr settings hsame data []),
        build_eq_of_get? found rfl]

omit [Host] in
/-- Nothing that a section leads to is a name that no section refers to. -/
theorem Registry.sameFrom_put {layout : Layout} {other : String}
    (found : registry.get? name = some layout)
    (fresh : ∀ referring, ¬ registry.References referring other) :
    registry.SameFrom (registry.put other layout) layout.rows := by
  intro row hrow ref href reached hreached
  have hfirst : registry.References name ref := ⟨layout, found, row, hrow, href⟩
  obtain ⟨last, -, hlast⟩ := TransGen.tail'_iff.1 (TransGen.head' hfirst hreached)
  have hne : reached ≠ other := by
    rintro rfl
    exact fresh last hlast
  exact Registry.get?_put_of_ne hne layout registry

/-- A section is built as well under a name that no section refers to. -/
theorem build_put (settings : Settings) {layout : Layout} {other : String}
    (found : registry.get? name = some layout)
    (fresh : ∀ referring, ¬ registry.References referring other) (data : Value) :
    build settings (registry.put other layout) other data = build settings registry name data := by
  have hsame := Registry.sameFrom_put found fresh
  rw [build_eq_of_get? (Registry.get?_put_self other layout registry)
    (Compose.Env.compose_congr settings hsame data []), build_eq_of_get? found rfl]

theorem buildFrom_map {members : Members} (h : Registry.ofMembers members = .ok registry)
    (settings : Settings) (name : String) (data : Value) :
    buildFrom settings (.map members) name data =
      (build settings registry name data).mapError .composition := by
  rw [buildFrom, Registry.ofValue, h]

/-- Building a section depends on the sections that it reaches and on no others, in two registries
that were read or put together in any way, and in two that are still to be read. In particular the
section of a registry that was read may be put under another name that nothing refers to and built
under that name. -/
theorem build_eq_of_reachable (settings : Settings) (name : String) (data : Value) :
    (∀ registry registry' : Registry,
      (∀ other, ReflTransGen registry.References name other →
        registry.get? other = registry'.get? other) →
      build settings registry name data = build settings registry' name data) ∧
    (∀ members members' registry registry', Registry.ofMembers members = .ok registry →
      Registry.ofMembers members' = .ok registry' →
      (∀ other, ReflTransGen registry.References name other →
        Registry.section? other members = Registry.section? other members') →
      buildFrom settings (.map members) name data =
        buildFrom settings (.map members') name data) ∧
    (∀ members registry layout other, Registry.ofMembers members = .ok registry →
      registry.get? name = some layout → (∀ referring, ¬ registry.References referring other) →
      (build settings (registry.put other layout) other data).mapError .composition =
        buildFrom settings (.map members) name data) := by
  refine ⟨?_, ?_, ?_⟩
  · intro registry registry' h
    exact (build_congr settings (fun other hother => (h other hother).symm) data).symm
  · intro members members' registry registry' hread hread' h
    have hsame : ∀ other, ReflTransGen registry.References name other →
        registry'.get? other = registry.get? other := by
      intro other hother
      rw [Registry.get?_ofMembers hread, Registry.get?_ofMembers hread', h other hother]
    rw [buildFrom_map hread, buildFrom_map hread', build_congr settings hsame data]
  · intro members registry layout other hread found fresh
    rw [buildFrom_map hread, build_put settings found fresh data]

end outcomes

def referenceTo (name : String) : Value :=
  .map [(.text "type", .text "sectionref"), (.text "ref", .text name)]

/-- Two sections that refer to each other, the second also to one that is not declared, with other
sections behind them. -/
def pairAnd (others : Members) : Members :=
  [(.text "A", .list [referenceTo "B"]),
    (.text "B", .list [.map [(.text "type", .text "row"),
      (.text "children", .list [referenceTo "C", referenceTo "A"])]])] ++ others

def nullBehind : Members := [(.text "C", .null), (.text "X", .list [referenceTo "A"])]

def otherBehind : Members := [(.text "Y", .list [referenceTo "Y", referenceTo "B"])]

def pairRegistry (others : Registry) : Registry :=
  [(.text "A", ⟨[.sectionRef "B"], some "A"⟩),
    (.text "B", ⟨[.group [.sectionRef "C", .sectionRef "A"]], some "B"⟩)] ++ others

def registryBehindNull : Registry := pairRegistry [(.text "X", ⟨[.sectionRef "A"], some "X"⟩)]

def registryBehindOther : Registry :=
  pairRegistry [(.text "Y", ⟨[.sectionRef "Y", .sectionRef "B"], some "Y"⟩)]

theorem ofMembers_nullBehind :
    Registry.ofMembers (pairAnd nullBehind) = .ok registryBehindNull := by
  rfl

theorem ofMembers_otherBehind :
    Registry.ofMembers (pairAnd otherBehind) = .ok registryBehindOther := by
  rfl

/-- A section that is declared is one of those in the registry. -/
theorem Registry.mem_of_get? {registry : Registry} {name : String} {layout : Layout}
    (found : registry.get? name = some layout) : (Key.text name, layout) ∈ registry := by
  induction registry with
  | nil => cases found
  | cons entry rest ih =>
      obtain ⟨key, other⟩ := entry
      rw [get?] at found
      split at found
      · next hkey =>
        cases found
        rw [hkey]
        exact List.mem_cons_self
      · exact List.mem_cons_of_mem _ (ih found)

theorem mem_of_pair_references {name ref : String}
    (h : registryBehindNull.References name ref) : ref ∈ ["A", "B", "C"] := by
  obtain ⟨layout, found, row, hrow, hmentions⟩ := h
  have hlayout : layout ∈ registryBehindNull.map Prod.snd :=
    List.mem_map_of_mem (Registry.mem_of_get? found)
  simp only [registryBehindNull, pairRegistry, List.cons_append, List.nil_append, List.map_cons,
    List.map_nil, List.mem_cons, List.not_mem_nil, or_false] at hlayout
  rcases hlayout with rfl | rfl | rfl
  · cases List.mem_singleton.1 hrow
    cases hmentions
    decide
  · cases List.mem_singleton.1 hrow
    cases hmentions with
    | group mem h =>
      simp only [List.mem_cons, List.not_mem_nil, or_false] at mem
      rcases mem with rfl | rfl <;> (cases h; decide)
  · cases List.mem_singleton.1 hrow
    cases hmentions
    decide

theorem mem_of_pair_reaches {name : String}
    (h : ReflTransGen registryBehindNull.References "A" name) : name ∈ ["A", "B", "C"] := by
  cases h with
  | refl => decide
  | tail _ hlast => exact mem_of_pair_references hlast

theorem build_eq_of_reachable_pair :
    letI := Host.standard 2025
    ((∀ other, ReflTransGen registryBehindNull.References "A" other →
        registryBehindNull.get? other = registryBehindOther.get? other) ∧
      build .standard registryBehindNull "A" .null =
        build .standard registryBehindOther "A" .null) ∧
    ((∀ other, ReflTransGen registryBehindNull.References "A" other →
        Registry.section? other (pairAnd nullBehind) =
          Registry.section? other (pairAnd otherBehind)) ∧
      buildFrom .standard (.map (pairAnd nullBehind)) "A" .null =
        buildFrom .standard (.map (pairAnd otherBehind)) "A" .null) ∧
    ((∀ referring, ¬ registryBehindNull.References referring "N") ∧
      (build .standard (registryBehindNull.put "N" ⟨[.sectionRef "B"], some "A"⟩) "N"
        .null).mapError .composition =
          buildFrom .standard (.map (pairAnd nullBehind)) "A" .null) := by
  let host := Host.standard 2025
  obtain ⟨hregistries, hmaps, hput⟩ := build_eq_of_reachable .standard "A" .null
  have hget : ∀ other, ReflTransGen registryBehindNull.References "A" other →
      registryBehindNull.get? other = registryBehindOther.get? other := by
    intro other hother
    have hmem := mem_of_pair_reaches hother
    simp only [List.mem_cons, List.not_mem_nil, or_false] at hmem
    rcases hmem with rfl | rfl | rfl <;> rfl
  have hsection : ∀ other, ReflTransGen registryBehindNull.References "A" other →
      Registry.section? other (pairAnd nullBehind) =
        Registry.section? other (pairAnd otherBehind) := by
    intro other hother
    have hmem := mem_of_pair_reaches hother
    simp only [List.mem_cons, List.not_mem_nil, or_false] at hmem
    rcases hmem with rfl | rfl | rfl <;> rfl
  have hfresh : ∀ referring, ¬ registryBehindNull.References referring "N" := by
    intro referring h
    exact absurd (mem_of_pair_references h) (by decide)
  exact ⟨⟨hget, hregistries _ _ hget⟩,
    ⟨hsection, hmaps _ _ _ _ ofMembers_nullBehind ofMembers_otherBehind hsection⟩,
    ⟨hfresh, hput _ _ _ _ ofMembers_nullBehind rfl hfresh⟩⟩

end Receipt
