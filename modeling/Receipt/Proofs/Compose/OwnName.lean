import Mathlib.Logic.Relation
import Receipt.Host.Standard
import Receipt.Proofs.Compose.Reachable

/-!
# The name that a section has of its own

A section is referred to by its key, and its own name may be another, or none. Only the name of the
section that is built is looked at: it stands first among the sections around the rows, and the
others are there under their keys. So a reference to the section whose key it is is taken for a
circle.

In a registry without circles this is the one way in which names matter, `build_unnamed`: where no
such reference is met, building gives what it gives without names, and where one is met, elements
are lost and a circle from the name to itself is reported that is none.
-/
namespace Receipt
open Relation

namespace Registry

/-- The same sections under the same keys, without names of their own. -/
def unnamed (registry : Registry) : Registry :=
  registry.map fun entry => (entry.1, { entry.2 with name := none })

/-- No section leads back to itself, by references to keys. -/
def Acyclic (registry : Registry) : Prop := ∀ key, ¬ TransGen registry.References key key

/-- Composing rows against data comes to a reference to a declared section, if nothing fails
before. -/
inductive Meets (registry : Registry) : Value → List Row → String → Prop
  | here {data : Value} {rows : List Row} {ref : String} (mem : .sectionRef ref ∈ rows)
      (declared : registry.get? ref ≠ none) : Meets registry data rows ref
  | deeper {data data' : Value} {rows inner : List Row} {row : Row} {ref : String}
      (mem : row ∈ rows) (leads : registry.LeadsTo data row data' inner)
      (h : Meets registry data' inner ref) : Meets registry data rows ref

/-- References are guarded, and composing the section of a key meets one to the section whose key
is the own name of the first. -/
structure NameMet (settings : Settings) (registry : Registry) (key : String) (data : Value)
    (own : String) : Prop where
  guarded : settings.guarded = true
  nonempty : own ≠ ""
  meets : ∃ layout, registry.get? key = some layout ∧ layout.name = some own ∧
    registry.Meets data layout.rows own

/-- Every name of some path leads to whatever rows mention. -/
def Behind (registry : Registry) (path : List String) (rows : List Row) : Prop :=
  ∀ name ∈ path, ∀ row ∈ rows, ∀ ref, row.Mentions ref → TransGen registry.References name ref

theorem get?_unnamed (name : String) (registry : Registry) :
    registry.unnamed.get? name =
      (registry.get? name).map fun layout => { layout with name := none } := by
  induction registry with
  | nil => rfl
  | cons entry rest ih =>
      rw [unnamed, List.map_cons, get?, get?]
      split
      · rfl
      · exact ih

variable {registry : Registry}

/-- What composing some rows meets is mentioned in them, or by a section that they lead to. -/
theorem Meets.reached {data : Value} {rows : List Row} {ref : String}
    (h : registry.Meets data rows ref) :
    ∃ row ∈ rows, ∃ first, row.Mentions first ∧ ReflTransGen registry.References first ref := by
  induction h with
  | here mem => exact ⟨_, mem, _, .here, .refl⟩
  | @deeper data data' rows inner row ref mem leads h ih =>
      obtain ⟨row', hrow', first, hfirst, hreached⟩ := ih
      cases leads with
      | group children => exact ⟨_, mem, first, .group hrow' hfirst, hreached⟩
      | item rows found hitem => exact ⟨_, mem, first, .iterator hrow' hfirst, hreached⟩
      | @reference name layout found =>
          have hstep : registry.References name first := ⟨layout, found, row', hrow', hfirst⟩
          exact ⟨_, mem, name, .here, hreached.head hstep⟩

theorem Meets.transGen {key : String} {layout : Layout} (found : registry.get? key = some layout)
    {data : Value} {ref : String} (h : registry.Meets data layout.rows ref) :
    TransGen registry.References key ref := by
  obtain ⟨row, hrow, first, hfirst, hreached⟩ := h.reached
  exact .head' ⟨layout, found, row, hrow, hfirst⟩ hreached

/-- Without circles, a section that is named by its key does not meet its name. -/
theorem Acyclic.not_nameMet (acyclic : registry.Acyclic) {settings : Settings} {key : String}
    {data : Value} : ¬ registry.NameMet settings key data key := by
  rintro ⟨-, -, layout, found, -, hmeets⟩
  exact acyclic key (hmeets.transGen found)

end Registry

namespace Compose.Env
variable [Host] {env : Env}

omit [Host] in
/-- The path behind the first name stays behind the rows that a row leads to. -/
theorem behind_opens {own : String} {path : List String} {rows : List Row}
    (h : env.registry.Behind path rows) {row : Row} (hrow : row ∈ rows)
    {next : List String × List Row} (hnext : next ∈ env.opens (own :: path) row) :
    ∃ path', next.1 = own :: path' ∧ env.registry.Behind path' next.2 := by
  cases row with
  | text | barcode | passthrough => cases hnext
  | group children =>
      cases hnext
      refine ⟨path, rfl, ?_⟩
      intro name hname inner hinner ref href
      exact h name hname _ hrow ref (.group hinner href)
  | iterator source inner =>
      cases hnext
      refine ⟨path, rfl, ?_⟩
      intro name hname row hmem ref href
      exact h name hname _ hrow ref (.iterator hmem href)
  | sectionRef ref =>
      simp only [opens] at hnext
      split at hnext
      · cases hnext
      · next layout found =>
        split at hnext
        · cases hnext
        · cases hnext
          refine ⟨path ++ [ref], rfl, ?_⟩
          intro name hname row hmem ref' href
          have hstep : env.registry.References ref ref' := ⟨layout, found, row, hmem, href⟩
          rcases List.mem_append.1 hname with hname | hname
          · exact (h name hname _ hrow ref .here).tail hstep
          · rw [List.mem_singleton.1 hname]
            exact .single hstep

/-- Without circles, one that is reported goes from the first name to itself, and a reference to the
section of that key is met. -/
theorem meets_of_cyclic (acyclic : env.registry.Acyclic) {n level : Nat} {own : String}
    {path : List String} {data : Value} {rows : List Row} {names : List String}
    (hbehind : env.registry.Behind path rows)
    (h : env.within n (own :: path) level data rows = .error (.cyclic names)) :
    env.settings.guarded = true ∧ env.registry.Meets data rows own ∧
      ∃ between, names = own :: between ++ [own] := by
  induction n generalizing path level data rows with
  | zero => cases h
  | succ n ih =>
      rcases within_eq_error h with hlevel | ⟨-, row, hrow, hfails⟩
      · obtain ⟨_, _, _, _, htooDeep⟩ := checkLevel_eq_error hlevel
        cases htooDeep
      · rcases rowWith_eq_error hfails with ⟨_, htemplate⟩ | ⟨ref, hcloses, hnames⟩ | hinside
        · cases htemplate
        · obtain ⟨rfl, declared, guarded, around⟩ := hcloses
          have hown : ref = own := by
            rcases List.mem_cons.1 around with hown | hpath
            · exact hown
            · exact (acyclic ref (hbehind ref hpath _ hrow ref .here)).elim
          subst hown
          cases hnames
          exact ⟨guarded, .here hrow declared, path, rfl⟩
        · obtain ⟨next, hnext, data', hleads, hinside⟩ := hinside
          obtain ⟨path', hpath', hbehind'⟩ := behind_opens hbehind hrow hnext
          rw [hpath'] at hinside
          obtain ⟨hguarded, hmeets, hnames⟩ := ih hbehind' hinside
          exact ⟨hguarded, .deeper hrow hleads hmeets, hnames⟩

/-- Where references are guarded and rows do not fail, they meet no section around them. -/
theorem not_meets_of_ok (hguarded : env.settings.guarded = true) {n level : Nat}
    {chain : List String} {data : Value} {rows : List Row} {es : List Element}
    (h : env.within n chain level data rows = .ok es) {name : String} (hname : name ∈ chain) :
    ¬ env.registry.Meets data rows name := by
  intro hmeets
  induction hmeets generalizing n chain level es with
  | @here data rows ref mem declared =>
      cases n with
      | zero => cases h
      | succ n =>
          obtain ⟨here, hrow⟩ := gather_eq_ok (within_eq_ok h).2 _ mem
          obtain ⟨layout, found⟩ := Option.ne_none_iff_exists'.1 declared
          simp only [rowWith, found, if_pos (And.intro hguarded hname)] at hrow
          cases hrow
  | @deeper data data' rows inner row ref mem leads hmeets ih =>
      cases n with
      | zero => cases h
      | succ n =>
          obtain ⟨here, hrow⟩ := gather_eq_ok (within_eq_ok h).2 row mem
          obtain ⟨chain', es', hsub, hinside⟩ := rowWith_eq_ok hrow leads
          exact ih hinside (hsub hname)

variable {settings : Settings} {registry : Registry}

/-- Nothing but the rows of the sections that are referred to is looked at. -/
theorem within_unnamed (n : Nat) (chain : List String) (level : Nat) (data : Value)
    (rows : List Row) :
    within ⟨settings, registry.unnamed⟩ n chain level data rows =
      within ⟨settings, registry⟩ n chain level data rows := by
  induction n generalizing chain level data rows with
  | zero => rfl
  | succ n ih =>
      rw [within_succ, within_succ]
      congr 1
      funext _
      refine gather_congr fun row _ => ?_
      cases row with
      | text | barcode | passthrough => rfl
      | group children => rw [rowWith_group, rowWith_group, ih]
      | iterator path inner =>
          rw [rowWith, rowWith]
          split
          · exact gather_congr fun item _ => ih chain (level + 1) item inner
          · rfl
      | sectionRef ref =>
          simp only [rowWith, Registry.get?_unnamed]
          cases registry.get? ref with
          | none => rfl
          | some layout => simp only [Option.map_some, ih]

/-- A section without a name of its own gives the same among sections that have names and among
sections that have none. -/
theorem compose_unnamed (rows : List Row) (data : Value) :
    compose ⟨settings, registry.unnamed⟩ ⟨rows, none⟩ data [] =
      compose ⟨settings, registry⟩ ⟨rows, none⟩ data [] := by
  obtain ⟨n, hn, hn'⟩ :=
    (((Env.mk settings registry.unnamed).eventually_layoutWithin ⟨rows, none⟩ data []).and
      ((Env.mk settings registry).eventually_layoutWithin ⟨rows, none⟩ data [])).exists
  rw [← hn, ← hn']
  exact within_unnamed n _ 0 data rows

/-- A circle was reported. -/
def IsCyclic : Error → Prop
  | .cyclic _ => True
  | .tooDeep _ | .endless | .template _ => False

/-- An empty name is as good as none. -/
theorem compose_nameless {layout : Layout} (h : layout.name = none ∨ layout.name = some "")
    (data : Value) : env.compose layout data [] = env.compose ⟨layout.rows, none⟩ data [] := by
  have hstart : startChain layout [] = startChain ⟨layout.rows, none⟩ [] := by
    rcases h with h | h <;> simp [startChain, h]
  rw [compose, compose, hstart]

/-- Without circles, the own name of a layout changes nothing, unless the section of that key is met
and this is reported as a circle. -/
theorem compose_named (env : Env) (acyclic : env.registry.Acyclic) {layout : Layout} {own : String}
    (hnamed : layout.name = some own) (hown : own ≠ "") (data : Value) :
    env.compose layout data [] = env.compose ⟨layout.rows, none⟩ data [] ∨
      (env.settings.guarded = true ∧ env.registry.Meets data layout.rows own ∧
        ∃ between, env.compose layout data [] = .error (.cyclic (own :: between ++ [own]))) := by
  obtain ⟨n, hn, hn'⟩ := ((env.eventually_layoutWithin layout data []).and
    (env.eventually_layoutWithin ⟨layout.rows, none⟩ data [])).exists
  rw [layoutWithin, startChain_nil hnamed hown] at hn
  rw [← hn, ← hn']
  by_cases hcyclic : ∃ names, env.within n [own] 0 data layout.rows = .error (.cyclic names)
  · obtain ⟨names, hnames⟩ := hcyclic
    have hbehind : env.registry.Behind [] layout.rows := List.forall_mem_nil _
    obtain ⟨hguarded, hmeets, between, rfl⟩ := meets_of_cyclic acyclic hbehind hnames
    exact .inr ⟨hguarded, hmeets, between, hnames⟩
  · have hfewer : Fewer IsCyclic [own] [] := .inr ⟨List.nil_subset _, fun _ => trivial⟩
    have hsame : Unless IsCyclic (env.within n [own] 0 data layout.rows)
        (env.within n [] 0 data layout.rows) :=
      within_unless (.refl IsCyclic env) (.inl rfl) hfewer 0 data layout.rows
    refine .inl (hsame ?_).symm
    intro e he hbad
    cases e with
    | cyclic names => exact hcyclic ⟨names, he⟩
    | tooDeep | endless | template => exact hbad

/-- Where references are guarded, a layout whose own name is met gives no elements. -/
theorem compose_ne_ok_of_meets (hguarded : env.settings.guarded = true) {layout : Layout}
    {own : String} (hnamed : layout.name = some own) (hown : own ≠ "") {data : Value}
    (hmeets : env.registry.Meets data layout.rows own) (es : List Element) :
    env.compose layout data [] ≠ .ok es := by
  intro h
  obtain ⟨n, hn⟩ := (env.eventually_layoutWithin layout data []).exists
  rw [← hn, layoutWithin, startChain_nil hnamed hown] at h
  exact not_meets_of_ok hguarded h List.mem_cons_self hmeets

end Compose.Env

section outcomes
variable [Host] {settings : Settings} {registry : Registry} {key : String} {data : Value}

theorem build_of_get?_none (missing : registry.get? key = none) :
    build settings registry key data = build settings registry.unnamed key data := by
  rw [build, build, Registry.get?_unnamed, missing]
  rfl

theorem build_unnamed_of_get? {layout : Layout} (found : registry.get? key = some layout) :
    build settings registry.unnamed key data =
      (Compose.Env.compose ⟨settings, registry⟩ ⟨layout.rows, none⟩ data []).map
        fun es => ⟨es, []⟩ := by
  have hunnamed : registry.unnamed.get? key = some ⟨layout.rows, none⟩ := by
    rw [Registry.get?_unnamed, found]
    rfl
  exact build_eq_of_get? hunnamed (Compose.Env.compose_unnamed layout.rows data)

/-- A section that is built gives what it gives without names, unless its own name is met and
reported. -/
theorem build_named (acyclic : registry.Acyclic) :
    build settings registry key data = build settings registry.unnamed key data ∨
      ∃ own, registry.NameMet settings key data own ∧
        ∃ between, build settings registry key data =
          .error (.cyclic (own :: between ++ [own])) := by
  cases found : registry.get? key with
  | none => exact .inl (build_of_get?_none found)
  | some layout =>
      rw [build_unnamed_of_get? found, build_eq_of_get? found rfl]
      by_cases hnameless : layout.name = none ∨ layout.name = some ""
      · exact .inl (by rw [Compose.Env.compose_nameless hnameless])
      · rw [not_or] at hnameless
        obtain ⟨own, hnamed⟩ := Option.ne_none_iff_exists'.1 hnameless.1
        have hown : own ≠ "" := by
          rintro rfl
          exact hnameless.2 hnamed
        rcases Compose.Env.compose_named ⟨settings, registry⟩ acyclic hnamed hown data with
          hsame | ⟨hguarded, hmeets, between, hcyclic⟩
        · exact .inl (by rw [hsame])
        · refine .inr ⟨own, ⟨hguarded, hown, layout, found, hnamed, hmeets⟩, between, ?_⟩
          rw [hcyclic]
          rfl

/-- Where the own name of a section is met, building it gives no elements. -/
theorem build_ne_ok_of_nameMet {own : String} (h : registry.NameMet settings key data own)
    (built : Built) : build settings registry key data ≠ .ok built := by
  obtain ⟨hguarded, hown, layout, found, hnamed, hmeets⟩ := h
  rw [build_eq_of_get? found rfl]
  intro hok
  obtain ⟨es, hes, -⟩ := map_eq_ok hok
  exact Compose.Env.compose_ne_ok_of_meets hguarded hnamed hown hmeets es hes

/-- In a registry without circles, names of sections change nothing where the own name of the
section that is built is not met as a key. Where it is, no elements are given, and if there are some
without names, a circle from the name to itself is reported. A section that is named by its key does
not meet its name. -/
theorem build_unnamed (settings : Settings) (acyclic : registry.Acyclic) (key : String)
    (data : Value) :
    ((∀ own, ¬ registry.NameMet settings key data own) →
      build settings registry key data = build settings registry.unnamed key data) ∧
    (∀ own, registry.NameMet settings key data own → ∀ built,
      build settings registry.unnamed key data = .ok built → ∃ between,
        build settings registry key data = .error (.cyclic (own :: between ++ [own]))) ∧
    ¬ registry.NameMet settings key data key := by
  refine ⟨?_, ?_, acyclic.not_nameMet⟩
  · intro hnone
    rcases build_named acyclic with hsame | ⟨own, hmet, -⟩
    · exact hsame
    · exact (hnone own hmet).elim
  · intro own hmet built hbuilt
    rcases build_named acyclic with hsame | ⟨own', hmet', between, hcyclic⟩
    · exact (build_ne_ok_of_nameMet hmet built (hsame.trans hbuilt)).elim
    · have hsame : own' = own := by
        obtain ⟨layout, found, hnamed, -⟩ := hmet.meets
        obtain ⟨layout', found', hnamed', -⟩ := hmet'.meets
        cases found.symm.trans found'
        exact Option.some.inj (hnamed'.symm.trans hnamed)
      subst hsame
      exact ⟨between, hcyclic⟩

end outcomes

def ruleRow : Row := .passthrough [(.text "type", .text "horizontalline")]

/-- A section under `X` whose own name is `A`, and which refers to the section under `A`. -/
def aliasRegistry : Registry :=
  [(.text "A", ⟨[ruleRow], some "C"⟩), (.text "C", ⟨[ruleRow], some "C"⟩),
    (.text "X", ⟨[.sectionRef "A"], some "A"⟩)]

theorem of_alias_references {name ref : String} (h : aliasRegistry.References name ref) :
    name = "X" ∧ ref = "A" := by
  obtain ⟨layout, found, row, hrow, hmentions⟩ := h
  have hmem := Registry.mem_of_get? found
  simp only [aliasRegistry, List.mem_cons, List.not_mem_nil, or_false, Prod.mk.injEq,
    Key.text.injEq] at hmem
  obtain ⟨rfl, rfl⟩ | ⟨rfl, rfl⟩ | ⟨rfl, rfl⟩ := hmem <;> cases List.mem_singleton.1 hrow <;>
    cases hmentions
  exact ⟨rfl, rfl⟩

theorem aliasRegistry_acyclic : aliasRegistry.Acyclic := by
  intro key h
  obtain ⟨ref, hfirst, -⟩ := TransGen.head'_iff.1 h
  obtain ⟨name, -, hlast⟩ := TransGen.tail'_iff.1 h
  have hX := (of_alias_references hfirst).1
  have hA := (of_alias_references hlast).2
  exact absurd (hX.symm.trans hA) (by decide)

theorem alias_nameMet (data : Value) {settings : Settings} (hguarded : settings.guarded = true) :
    aliasRegistry.NameMet settings "X" data "A" where
  guarded := hguarded
  nonempty := by decide
  meets := ⟨⟨[.sectionRef "A"], some "A"⟩, rfl, rfl, .here List.mem_cons_self nofun⟩

theorem alias_meets_nothing (data : Value) (ref : String) :
    ¬ aliasRegistry.Meets data [ruleRow] ref := by
  intro h
  cases h with
  | here mem declared => cases List.mem_singleton.1 mem
  | deeper mem leads h =>
      cases List.mem_singleton.1 mem
      cases leads

theorem build_unnamed_alias :
    letI := Host.standard 2025
    let settings : Settings := { Settings.standard with maxDepth := none }
    aliasRegistry.Acyclic ∧
      ((∀ own, ¬ aliasRegistry.NameMet settings "A" .null own) ∧
        build settings aliasRegistry "A" .null = build settings aliasRegistry.unnamed "A" .null) ∧
      aliasRegistry.NameMet settings "X" .null "A" ∧
      build settings aliasRegistry.unnamed "X" .null =
        .ok ⟨[.passthrough [(.text "type", .text "horizontalline")]], []⟩ ∧
      ∃ between, build settings aliasRegistry "X" .null =
        .error (.cyclic ("A" :: between ++ ["A"])) := by
  let host := Host.standard 2025
  intro settings
  have hnone : ∀ own, ¬ aliasRegistry.NameMet settings "A" .null own := by
    rintro own ⟨-, -, layout, found, -, hmeets⟩
    cases found
    exact alias_meets_nothing .null own hmeets
  have hmet := alias_nameMet .null (show settings.guarded = true from rfl)
  have hunnamed : build settings aliasRegistry.unnamed "X" .null =
      .ok ⟨[.passthrough [(.text "type", .text "horizontalline")]], []⟩ := by
    have hwithin : Compose.Env.layoutWithin ⟨settings, aliasRegistry.unnamed⟩ 3
        ⟨[.sectionRef "A"], none⟩ .null [] =
          .ok [.passthrough [(.text "type", .text "horizontalline")]] := by
      rfl
    exact build_eq_of_get? rfl (Compose.Env.compose_eq_of_layoutWithin hwithin nofun)
  exact ⟨aliasRegistry_acyclic,
    ⟨hnone, (build_unnamed settings aliasRegistry_acyclic "A" .null).1 hnone⟩, hmet, hunnamed,
    (build_unnamed settings aliasRegistry_acyclic "X" .null).2.1 "A" hmet _ hunnamed⟩

/-- No section of the registry leads back to itself, and yet a circle is reported under the names
that its sections have, where elements are given if they have none. -/
theorem exists_build_ne_unnamed :
    letI := Host.standard 2025
    let settings : Settings := { Settings.standard with maxDepth := none }
    aliasRegistry.Acyclic ∧
      build settings aliasRegistry "X" (.map []) = .error (.cyclic ["A", "A"]) ∧
      build settings aliasRegistry.unnamed "X" (.map []) =
        .ok ⟨[.passthrough [(.text "type", .text "horizontalline")]], []⟩ := by
  let host := Host.standard 2025
  intro settings
  have hnamed : Compose.Env.layoutWithin ⟨settings, aliasRegistry⟩ 3
      ⟨[.sectionRef "A"], some "A"⟩ (.map []) [] = .error (.cyclic ["A", "A"]) := by
    rfl
  have hunnamed : Compose.Env.layoutWithin ⟨settings, aliasRegistry.unnamed⟩ 3
      ⟨[.sectionRef "A"], none⟩ (.map []) [] =
        .ok [.passthrough [(.text "type", .text "horizontalline")]] := by
    rfl
  exact ⟨aliasRegistry_acyclic,
    build_eq_of_get? rfl (Compose.Env.compose_eq_of_layoutWithin hnamed nofun),
    build_eq_of_get? rfl (Compose.Env.compose_eq_of_layoutWithin hunnamed nofun)⟩

end Receipt
