import Mathlib.Order.Lattice.Nat
import Receipt.Host.Standard
import Receipt.Proofs.Compose.Termination

/-!
# What the guards change

A guard that does not stop composition cannot be seen. Without the guard against circles composition
comes out the same, unless a circle was what it reported: `compose_withCycles_eq`.

A limit is compared with levels. `Registry.Enters` says which levels composing some rows enters,
from the rows, the data and the registry alone. Where composition without a limit gives elements,
there is a deepest of them; a limit that reaches it changes nothing, and every other one is
reported: `compose_withLimit_eq`.
-/
namespace Receipt

/-- Composing rows against data enters a level, counted from the level of the rows. -/
inductive Registry.Enters (registry : Registry) : Value → List Row → Nat → Prop
  | here (data : Value) (rows : List Row) : Enters registry data rows 0
  | deeper {data data' : Value} {rows inner : List Row} {row : Row} {level : Nat}
      (mem : row ∈ rows) (leads : registry.LeadsTo data row data' inner)
      (h : Enters registry data' inner level) : Enters registry data rows (level + 1)

namespace Compose.Env
open Filter
variable [Host] {env : Env}

/-- The same with another setting of the guard against circles. -/
def withCycles (env : Env) (detect : Value) : Env :=
  ⟨{ env.settings with detectCycles := detect }, env.registry⟩

/-- The same with another limit. -/
def withLimit (env : Env) (limit : Option DepthLimit) : Env :=
  ⟨{ env.settings with maxDepth := limit }, env.registry⟩

/-- A circle was reported, or a bound was too small. -/
def OfCircle : Error → Prop
  | .cyclic _ | .endless => True
  | .tooDeep _ | .template _ => False

omit [Host] in
theorem looser_withCycles (env : Env) (on : Value) {off : Value} (hoff : off.truthy = false) :
    Looser OfCircle (env.withCycles on) (env.withCycles off) where
  registry := rfl
  expander := rfl
  guarded := .inr ⟨hoff, fun _ => trivial⟩
  limit := .inl rfl

/-- Composition without the guard against circles gives what it gives with the guard, the same
elements or the same error, unless the guard reports a circle. In particular it ends. -/
theorem compose_withCycles_eq (env : Env) {on off : Value} (hon : on.truthy = true)
    (hoff : off.truthy = false) {layout : Layout} {data : Value} {chain : List String}
    (hno : ∀ names, (env.withCycles on).compose layout data chain ≠ .error (.cyclic names)) :
    (env.withCycles off).compose layout data chain =
        (env.withCycles on).compose layout data chain ∧
      (env.withCycles off).compose layout data chain ≠ .error .endless := by
  have hguards : (env.withCycles on).settings.guarded = true := hon
  obtain ⟨n, hn⟩ := (eventually_finished (.inl hguards) (startChain layout chain)
    layout.rows).exists
  have hfinished : Finished ((env.withCycles on).layoutWithin n layout data chain) := hn data
  have hguarded := compose_eq_layoutWithin hfinished
  have hsame : (env.withCycles off).layoutWithin n layout data chain =
      (env.withCycles on).layoutWithin n layout data chain := by
    apply within_looser (looser_withCycles env on hoff) trivial le_rfl
    intro e he hcircle
    have hcompose : (env.withCycles on).compose layout data chain = .error e := hguarded.trans he
    cases e with
    | cyclic names => exact hno names hcompose
    | endless => exact hfinished he
    | tooDeep limit => exact hcircle
    | template cause => exact hcircle
  have hunguarded := compose_eq_of_layoutWithin hsame hfinished
  constructor
  · rw [hunguarded, hguarded]
  · rw [hunguarded]
    exact hfinished

/-- Three sections, each of which refers to the next. -/
def ringRegistry : Registry :=
  [(.text "A", ⟨[.sectionRef "B"], some "A"⟩), (.text "B", ⟨[.group [.sectionRef "C"]], some "B"⟩),
    (.text "C", ⟨[.sectionRef "A"], some "C"⟩)]

omit [Host] in
theorem compose_withCycles_eq_ring :
    letI := Host.standard 2025
    let env : Env := ⟨⟨.keepToken, .text "%x", .null, some (.count 2)⟩, ringRegistry⟩
    let layout : Layout := ⟨[.sectionRef "B"], some "A"⟩
    ((Value.bool true).truthy = true ∧ (Value.int 0).truthy = false ∧
      ∀ names, (env.withCycles (.bool true)).compose layout .null [] ≠ .error (.cyclic names)) ∧
    (env.withCycles (.int 0)).compose layout .null [] =
        (env.withCycles (.bool true)).compose layout .null [] ∧
      (env.withCycles (.int 0)).compose layout .null [] ≠ .error .endless := by
  let host := Host.standard 2025
  intro env layout
  have hwithin : (env.withCycles (.bool true)).layoutWithin 4 layout .null [] =
      .error (.tooDeep (.count 2)) := by
    rfl
  have hcompose := compose_eq_of_layoutWithin hwithin nofun
  have hno : ∀ names,
      (env.withCycles (.bool true)).compose layout .null [] ≠ .error (.cyclic names) := by
    intro names
    rw [hcompose]
    nofun
  exact ⟨⟨rfl, rfl, hno⟩, compose_withCycles_eq env rfl rfl hno⟩

omit [Host] in
theorem limit?_withLimit (env : Env) {limit : DepthLimit} {deepest : Nat}
    (hbound : limit.bound = some deepest) :
    (env.withLimit (some limit)).settings.limit? = some (deepest, limit) := by
  simp [withLimit, Settings.limit?, hbound]

omit [Host] in
theorem looser_withLimit (env : Env) (limit : DepthLimit) :
    Looser (∃ limit, · = .tooDeep limit) (env.withLimit (some limit)) (env.withLimit none) where
  registry := rfl
  expander := rfl
  guarded := .inl rfl
  limit := .inr ⟨rfl, fun limit => ⟨limit, rfl⟩⟩

/-- Where rows do not fail, every level that they enter passes, and is less than the bound. -/
theorem checkLevel_of_enters {n level : Nat} {chain : List String} {data : Value}
    {rows : List Row} {es : List Element} (h : env.within n chain level data rows = .ok es)
    {k : Nat} (henters : env.registry.Enters data rows k) :
    k < n ∧ env.checkLevel (level + k) = .ok () := by
  induction henters generalizing n level chain es with
  | here data rows =>
      cases n with
      | zero => cases h
      | succ n => exact ⟨n.succ_pos, (within_eq_ok h).1⟩
  | @deeper data data' rows inner row k mem leads henters ih =>
      cases n with
      | zero => cases h
      | succ n =>
          obtain ⟨here, hrow⟩ := gather_eq_ok (within_eq_ok h).2 row mem
          obtain ⟨chain', es', -, hinside⟩ := rowWith_eq_ok hrow leads
          obtain ⟨hlt, hlevel⟩ := ih hinside
          rw [Nat.add_right_comm] at hlevel
          exact ⟨Nat.succ_lt_succ hlt, hlevel⟩

/-- Where the limit is reported, a level beyond it was entered. -/
theorem exists_enters_of_tooDeep {n level : Nat} {chain : List String} {data : Value}
    {rows : List Row} {limit : DepthLimit}
    (h : env.within n chain level data rows = .error (.tooDeep limit)) :
    ∃ k deepest, env.registry.Enters data rows k ∧
      env.settings.limit? = some (deepest, limit) ∧ deepest < level + k := by
  induction n generalizing level chain data rows with
  | zero => cases h
  | succ n ih =>
      rcases within_eq_error h with hlevel | ⟨-, row, hmem, hrow⟩
      · obtain ⟨deepest, limit', hlimit, hlt, heq⟩ := checkLevel_eq_error hlevel
        cases heq
        exact ⟨0, deepest, .here data rows, hlimit, hlt⟩
      · rcases rowWith_eq_error hrow with ⟨_, htemplate⟩ | ⟨_, _, hcyclic⟩ | hinside
        · cases htemplate
        · cases hcyclic
        · obtain ⟨next, -, data', hleads, hinside⟩ := hinside
          obtain ⟨k, deepest, henters, hlimit, hlt⟩ := ih hinside
          exact ⟨k + 1, deepest, .deeper hmem hleads henters, hlimit, by omega⟩

/-- A limit is reported if rows enter a level beyond it, and otherwise changes nothing. -/
theorem within_withLimit {limit : DepthLimit} {deepest : Nat}
    (hbound : limit.bound = some deepest) {n level : Nat} {chain : List String} {data : Value}
    {rows : List Row} {es : List Element}
    (h : (env.withLimit none).within n chain level data rows = .ok es) :
    ((∀ k, env.registry.Enters data rows k → level + k ≤ deepest) ∧
      (env.withLimit (some limit)).within n chain level data rows = .ok es) ∨
    ((∃ k, env.registry.Enters data rows k ∧ deepest < level + k) ∧
      (env.withLimit (some limit)).within n chain level data rows = .error (.tooDeep limit)) := by
  have hlimit := env.limit?_withLimit hbound
  by_cases hdeep : ∃ limit', (env.withLimit (some limit)).within n chain level data rows =
      .error (.tooDeep limit')
  · obtain ⟨limit', hdeep⟩ := hdeep
    obtain ⟨k, deepest', henters, hlimit', hlt⟩ := exists_enters_of_tooDeep hdeep
    cases hlimit.symm.trans hlimit'
    exact .inr ⟨⟨k, henters, hlt⟩, hdeep⟩
  · have hok : (env.withLimit (some limit)).within n chain level data rows = .ok es := by
      rw [← h]
      symm
      apply within_unless (looser_withLimit env limit) (.inl rfl) (.inl rfl)
      rintro e he ⟨limit', rfl⟩
      exact hdeep ⟨limit', he⟩
    refine .inl ⟨fun k henters => ?_, hok⟩
    have hpassed := (checkLevel_of_enters hok henters).2
    simp only [checkLevel, hlimit] at hpassed
    by_contra hlt
    rw [if_pos (by omega)] at hpassed
    cases hpassed

/-- Composition that gives elements without a limit has a deepest level. It gives the same elements
with every limit that reaches this level, and with every other one it reports the limit. -/
theorem compose_withLimit_eq (env : Env) {layout : Layout} {data : Value} {chain : List String}
    {es : List Element} (h : (env.withLimit none).compose layout data chain = .ok es) :
    ∃ deepest, IsGreatest {level | env.registry.Enters data layout.rows level} deepest ∧
      ∀ limit reached, DepthLimit.bound limit = some reached →
        (env.withLimit (some limit)).compose layout data chain =
          if deepest ≤ reached then .ok es else .error (.tooDeep limit) := by
  obtain ⟨n, hn⟩ := ((env.withLimit none).eventually_layoutWithin layout data chain).exists
  have hwithin : (env.withLimit none).within n (startChain layout chain) 0 data layout.rows =
      .ok es := hn.trans h
  have hbounded : BddAbove {level | env.registry.Enters data layout.rows level} :=
    ⟨n, fun k henters => (checkLevel_of_enters hwithin henters).1.le⟩
  have hmem := Nat.sSup_mem ⟨0, .here data layout.rows⟩ hbounded
  refine ⟨_, ⟨hmem, fun k henters => le_csSup hbounded henters⟩, fun limit reached hbound => ?_⟩
  rcases within_withLimit hbound hwithin with ⟨hreached, hok⟩ | ⟨⟨k, henters, hlt⟩, hdeep⟩
  · have hle := hreached _ hmem
    rw [if_pos (by omega)]
    exact compose_eq_of_layoutWithin hok nofun
  · have hle := le_csSup hbounded henters
    rw [if_neg (by omega)]
    exact compose_eq_of_layoutWithin hdeep nofun

/-- A group without rows, two items with a section in a group for each, and references that lead
nowhere. -/
def nestedLayout : Layout :=
  ⟨[.group [], .iterator "items" [.group [.sectionRef "C"]], .iterator "none" [.group []],
    .sectionRef "D"], none⟩

omit [Host] in
theorem compose_withLimit_eq_nested :
    letI := Host.standard 2025
    let env : Env := ⟨.standard, [(.text "C", ⟨[.passthrough []], some "C"⟩)]⟩
    let data : Value := .map [(.text "items", .list [.int 1, .int 2])]
    let es : List Element := [.row [] .null, .row [.passthrough []] .null,
      .row [.passthrough []] .null]
    (env.withLimit none).compose nestedLayout data [] = .ok es ∧
    ∃ deepest, IsGreatest {level | env.registry.Enters data nestedLayout.rows level} deepest ∧
      ∀ limit reached, DepthLimit.bound limit = some reached →
        (env.withLimit (some limit)).compose nestedLayout data [] =
          if deepest ≤ reached then .ok es else .error (.tooDeep limit) := by
  let host := Host.standard 2025
  intro env data es
  have hwithin : (env.withLimit none).layoutWithin 4 nestedLayout data [] = .ok es := by
    rfl
  have hok := compose_eq_of_layoutWithin hwithin nofun
  exact ⟨hok, compose_withLimit_eq env hok⟩

end Compose.Env
end Receipt
