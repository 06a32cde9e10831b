import Mathlib.Order.Filter.Finite
import Receipt.Host.Standard
import Receipt.Proofs.Compose.Agreement

/-!
# Guarded composition ends

A reference follows a name through the registry, so the rows that it leads to need not be smaller.
With the guard against circles the sections that are not yet around the rows grow fewer; with a
limit the levels left do. Either way some bound on nesting is enough, whatever the data, and so
composition gives elements or an error that says why.

`compose_ends` also says which error it is where the same layout would be composed for ever without
the guards. A limit that is infinite, or not a number, is no guard.
-/
namespace Receipt

/-- Some level lies beyond the limit. -/
def DepthLimit.IsFinite : DepthLimit → Prop
  | .double .nan | .double (.infinite _) => False
  | _ => True

theorem Settings.limit?_ne_none {settings : Settings} {limit : DepthLimit}
    (h : settings.maxDepth = some limit) (hfinite : limit.IsFinite) :
    settings.limit? ≠ none := by
  rw [Settings.limit?, h]
  cases limit with
  | count levels => nofun
  | yes => nofun
  | double d =>
      cases d with
      | nan => exact hfinite.elim
      | infinite negative => exact hfinite.elim
      | finite => nofun

namespace Compose
open Filter

theorem unentered_append_singleton (registry : Registry) (chain : List String) (name : String) :
    unentered registry (chain ++ [name]) = unentered registry (name :: chain) := by
  simp [unentered, isAmong, List.any_append, Bool.or_comm]

namespace Env
variable [Host] {env : Env}

omit [Host] in
/-- A row leads to fewer sections, or to smaller rows between the same ones. -/
theorem opens_lt (hguarded : env.settings.guarded = true) {chain : List String} {row : Row}
    {next : List String × List Row} (h : next ∈ env.opens chain row) :
    unentered env.registry next.1 < unentered env.registry chain ∨
      unentered env.registry next.1 = unentered env.registry chain ∧
        sizeOf next.2 < sizeOf row := by
  cases row with
  | text | barcode | passthrough => cases h
  | group children =>
      cases h
      exact .inr ⟨rfl, by simp⟩
  | iterator path rows =>
      cases h
      refine .inr ⟨rfl, ?_⟩
      show sizeOf rows < sizeOf (Row.iterator path rows)
      rw [Row.iterator.sizeOf_spec]
      omega
  | sectionRef ref =>
      simp only [opens] at h
      split at h
      · cases h
      · next layout found =>
        split at h
        · cases h
        · next fresh =>
          cases h
          refine .inl ?_
          rw [unentered_append_singleton]
          exact unentered_cons_lt found fun hmem => fresh ⟨hguarded, hmem⟩

/-- One level more is enough where the bound is enough for all rows that the rows lead to. -/
theorem finished_succ {n : Nat} {chain : List String} {level : Nat} {data : Value}
    {rows : List Row} (h : env.checkLevel level = .ok () → ∀ row ∈ rows,
      ∀ next ∈ env.opens chain row, ∀ data',
        Finished (env.within n next.1 (level + 1) data' next.2)) :
    Finished (env.within (n + 1) chain level data rows) := by
  intro hendless
  rcases within_eq_error hendless with hlevel | ⟨hlevel, row, hrow, hrowEndless⟩
  · obtain ⟨_, _, _, _, htooDeep⟩ := checkLevel_eq_error hlevel
    cases htooDeep
  · rcases rowWith_eq_error hrowEndless with ⟨_, htemplate⟩ | ⟨_, _, hcyclic⟩ | hinside
    · cases htemplate
    · cases hcyclic
    · obtain ⟨next, hnext, data', -, hinside⟩ := hinside
      exact h hlevel row hrow next hnext data' hinside

theorem finished_of_limited {deepest : Nat} {limit : DepthLimit}
    (hlimit : env.settings.limit? = some (deepest, limit)) {n level : Nat}
    (hlevel : level ≤ deepest + 1) (hn : deepest + 2 ≤ n + level) (chain : List String)
    (data : Value) (rows : List Row) : Finished (env.within n chain level data rows) := by
  induction n generalizing level chain data rows with
  | zero => omega
  | succ n ih =>
      refine finished_succ fun hpassed row _ next _ data' => ?_
      have hle : level ≤ deepest := by
        simp only [checkLevel, hlimit] at hpassed
        by_contra hlt
        rw [if_pos (by omega)] at hpassed
        cases hpassed
      exact ih (by omega) (by omega) next.1 data' next.2

theorem eventually_finished_of_guarded (hguarded : env.settings.guarded = true)
    (chain : List String) (rows : List Row) :
    ∀ᶠ n in atTop, ∀ level data, Finished (env.within n chain level data rows) := by
  have hopened : ∀ᶠ n in atTop, ∀ row ∈ rows, ∀ next ∈ env.opens chain row, ∀ level data,
      Finished (env.within n next.1 level data next.2) := by
    refine (eventually_all_finite rows.finite_toSet).2 fun row hrow => ?_
    cases hopens : env.opens chain row with
    | none => simp
    | some next =>
        have hsmaller := opens_lt hguarded hopens
        have hmem := List.sizeOf_lt_of_mem hrow
        filter_upwards [eventually_finished_of_guarded hguarded next.1 next.2]
          with n hn next' hnext'
        cases hnext'
        exact hn
  rw [← map_add_atTop_eq_nat 1, eventually_map]
  filter_upwards [hopened] with n hn level data
  exact finished_succ fun _ row hrow next hnext => hn row hrow next hnext (level + 1)
termination_by (unentered env.registry chain, sizeOf rows)
decreasing_by
  rcases hsmaller with hfewer | ⟨hsame, hless⟩
  · exact .left _ _ hfewer
  · rw [hsame]
    exact .right _ (hless.trans hmem)

theorem eventually_finished (h : env.settings.guarded = true ∨ env.settings.limit? ≠ none)
    (chain : List String) (rows : List Row) :
    ∀ᶠ n in atTop, ∀ data, Finished (env.within n chain 0 data rows) := by
  rcases h with hguarded | hlimit
  · filter_upwards [eventually_finished_of_guarded hguarded chain rows] with n hn
    exact hn 0
  · obtain ⟨⟨deepest, limit⟩, hlimit⟩ := Option.ne_none_iff_exists'.1 hlimit
    filter_upwards [eventually_ge_atTop (deepest + 2)] with n hn data
    exact finished_of_limited hlimit (Nat.zero_le _) hn chain data rows

/-- The same without any guard. -/
def unguarded (env : Env) : Env :=
  ⟨{ env.settings with detectCycles := .bool false, maxDepth := none }, env.registry⟩

/-- Whether an error is not given without guards, or not with a larger bound. -/
def OfGuard : Error → Prop
  | .cyclic _ | .tooDeep _ | .endless => True
  | .template _ => False

omit [Host] in
theorem looser_unguarded (env : Env) : Looser OfGuard env env.unguarded :=
  ⟨rfl, rfl, .inr ⟨rfl, fun _ => trivial⟩, .inr ⟨rfl, fun _ => trivial⟩⟩

/-- Without guards, rows that never end with any bound are stopped by a guard if there is one. -/
theorem stopped_of_endless {n : Nat} {layout : Layout} {data : Value} {chain : List String}
    (hfinished : Finished (env.layoutWithin n layout data chain))
    (hendless : ∀ m, env.unguarded.layoutWithin m layout data chain = .error .endless) :
    (∃ names, env.layoutWithin n layout data chain = .error (.cyclic names)) ∨
      ∃ limit, env.layoutWithin n layout data chain = .error (.tooDeep limit) := by
  by_contra hno
  rw [not_or] at hno
  have hsame := within_looser (looser_unguarded env) trivial (le_refl n)
    (startChain layout chain) 0 data layout.rows
  refine hfinished ((hsame fun e he hguard => ?_).symm.trans (hendless n))
  cases e with
  | cyclic names => exact hno.1 ⟨names, he⟩
  | tooDeep limit => exact hno.2 ⟨limit, he⟩
  | endless => exact hfinished he
  | template cause => exact hguard

/-- Composition that is guarded against circles, or by a finite limit, ends: a bound on nesting
that does not depend on the data is enough for it. Where the layout would be composed for ever
without the guards, the error is that of a guard. -/
theorem compose_ends (env : Env) (layout : Layout) (chain : List String)
    (guards : env.settings.guarded = true ∨
      ∃ limit, env.settings.maxDepth = some limit ∧ limit.IsFinite) :
    ∃ n, ∀ data,
      (∀ m ≥ n, env.layoutWithin m layout data chain = env.compose layout data chain) ∧
      env.compose layout data chain ≠ .error .endless ∧
      ((∀ m, env.unguarded.layoutWithin m layout data chain = .error .endless) →
        (∃ names, env.compose layout data chain = .error (.cyclic names)) ∨
          ∃ limit, env.compose layout data chain = .error (.tooDeep limit)) := by
  have hguards : env.settings.guarded = true ∨ env.settings.limit? ≠ none :=
    guards.imp_right fun ⟨limit, hlimit, hfinite⟩ => Settings.limit?_ne_none hlimit hfinite
  obtain ⟨n, hn⟩ := eventually_atTop.1
    (eventually_finished hguards (startChain layout chain) layout.rows)
  refine ⟨n, fun data => ?_⟩
  have hfinished : Finished (env.layoutWithin n layout data chain) := hn n le_rfl data
  refine ⟨fun m hm => (compose_eq_layoutWithin (hn m hm data)).symm, ?_, fun hendless => ?_⟩
  · rw [compose_eq_layoutWithin hfinished]
    exact hfinished
  · rw [compose_eq_layoutWithin hfinished]
    exact stopped_of_endless hfinished hendless

/-- A section that refers to itself. -/
def selfLayout : Layout := ⟨[.sectionRef "S"], some "S"⟩

def selfReference (settings : Settings) : Env := ⟨settings, [(.text "S", selfLayout)]⟩

theorem selfReference_endless {settings : Settings} (hguarded : settings.guarded = false)
    (hlimit : settings.limit? = none) (n : Nat) (chain : List String) (level : Nat)
    (data : Value) :
    (selfReference settings).within n chain level data selfLayout.rows = .error .endless := by
  induction n generalizing chain level with
  | zero => rfl
  | succ n ih =>
      have hrow : (selfReference settings).rowWith ((selfReference settings).within n) chain level
          data (.sectionRef "S") = .error .endless :=
        (rowWith_section rfl (by simp [selfReference, hguarded])).trans (ih _ _)
      rw [within_succ, checkLevel_of_unlimited hlimit, selfLayout]
      simp only [gather_cons, hrow]
      rfl

omit [Host] in
theorem compose_ends_at_limit :
    letI := Host.standard 2025
    let settings : Settings := ⟨.keepToken, .text "%x", .bool false, some (.count 3)⟩
    let env := selfReference settings
    (settings.maxDepth = some (.count 3) ∧ (DepthLimit.count 3).IsFinite) ∧
      (∃ n, ∀ m ≥ n, env.layoutWithin m selfLayout .null [] = env.compose selfLayout .null []) ∧
      ((∃ names, env.compose selfLayout .null [] = .error (.cyclic names)) ∨
        ∃ limit, env.compose selfLayout .null [] = .error (.tooDeep limit)) := by
  let host := Host.standard 2025
  intro settings env
  obtain ⟨n, hn⟩ := compose_ends env selfLayout [] (.inr ⟨.count 3, rfl, trivial⟩)
  obtain ⟨henough, -, hstopped⟩ := hn .null
  refine ⟨⟨rfl, trivial⟩, ⟨n, henough⟩, hstopped fun m => ?_⟩
  exact selfReference_endless rfl rfl m _ _ .null

omit [Host] in
/-- An infinite limit is read and kept, but every bound is too small with it. -/
theorem endless_with_infinite_limit :
    letI := Host.standard 2025
    let settings : Settings :=
      ⟨.keepToken, .text "%x %X", .bool false, some (.double (.infinite false))⟩
    Settings.ofValue (.map [(.text "detect_cycles", .bool false),
      (.text "max_depth", .double (.infinite false))]) = .ok (settings, []) ∧
    settings.maxDepth ≠ none ∧
    (∀ n, (selfReference settings).layoutWithin n selfLayout (.map []) [] = .error .endless) ∧
    (selfReference settings).compose selfLayout (.map []) [] = .error .endless := by
  let host := Host.standard 2025
  intro settings
  have hendless : ∀ n, (selfReference settings).layoutWithin n selfLayout (.map []) [] =
      .error .endless := fun n => selfReference_endless rfl rfl n _ _ _
  obtain ⟨n, hn⟩ := (eventually_layoutWithin selfLayout (.map []) []).exists
  exact ⟨by cbv, nofun, hendless, hn.symm.trans (hendless n)⟩

end Env
end Compose
end Receipt
