import Mathlib.Order.Filter.AtTopBot.Basic
import Receipt.Proofs.Compose.Within

/-!
# Composition is composition with a large enough bound

`eventually_layoutWithin`: once the bound on nesting is large enough, composing with the bound gives
what composing without it gives. There is such a bound for every composition, also for one that goes
on for ever, where every bound is too small.

The one answer that does not follow the rules step by step is given when a section is entered again
with the same data and nothing guards it. There the task at hand is a part of itself (`Inside`), so
that a bound which is enough for it leads to a smaller one, and none is.
-/
namespace Receipt.Compose
open Filter

theorem Finished.of_map {r : Outcome} {f : List Element → List Element}
    (h : Finished (r.map f)) : Finished r := by
  rintro rfl
  exact h rfl

theorem Finished.of_gather_head {α : Type} {f : α → Outcome} {a : α} {as : List α}
    (h : Finished (gather f (a :: as))) : Finished (f a) := by
  intro ha
  rw [gather_cons, ha] at h
  exact h rfl

theorem Finished.of_gather_tail {α : Type} {f : α → Outcome} {a : α} {as : List α}
    {here : List Element} (h : Finished (gather f (a :: as))) (ha : f a = .ok here) :
    Finished (gather f as) := by
  rw [gather_cons, ha] at h
  exact h.of_map

namespace Env
variable [Host] {env : Env}

theorem rowWith_section {inside : List String → Nat → Value → List Row → Outcome}
    {chain : List String} {level : Nat} {data : Value} {ref : String} {layout : Layout}
    (found : env.registry.get? ref = some layout)
    (fresh : ¬ (env.settings.guarded ∧ ref ∈ chain)) :
    env.rowWith inside chain level data (.sectionRef ref) =
      inside (chain ++ [ref]) (level + 1) data layout.rows := by
  simp only [rowWith, found, if_neg fresh]

theorem eventually_within {chain : List String} {level : Nat} {data : Value} {rows : List Row}
    {r : Outcome} (h : ∀ᶠ n in atTop, (env.checkLevel level).bind (fun _ =>
      gather (env.rowWith (env.within n) chain level data) rows) = r) :
    ∀ᶠ n in atTop, env.within n chain level data rows = r := by
  rw [← map_add_atTop_eq_nat 1, eventually_map]
  simpa only [within_succ] using h

theorem exists_lt_finished (hlimit : env.settings.limit? = none) {n : Nat} {chain : List String}
    {level : Nat} {data : Value} {rows : List Row}
    (h : Finished (env.within n chain level data rows)) :
    ∃ k < n, Finished (gather (env.rowWith (env.within k) chain level data) rows) := by
  cases n with
  | zero => exact (h rfl).elim
  | succ k =>
      rw [within_succ, checkLevel_of_unlimited hlimit] at h
      exact ⟨k, k.lt_succ_self, h⟩

/-- What comes of a reference. -/
inductive Entering (env : Env) (p : Place) (ref : String) : Except Error (Option Layout) → Prop
  | undeclared (missing : env.registry.get? ref = none) : Entering env p ref (.ok none)
  | circle {layout : Layout} (found : env.registry.get? ref = some layout)
      (around : env.settings.guarded ∧ ref ∈ p.chain) :
      Entering env p ref (.error (.cyclic (p.chain ++ [ref])))
  | deep {layout : Layout} {e : Error} (found : env.registry.get? ref = some layout)
      (fresh : ¬ (env.settings.guarded ∧ ref ∈ p.chain))
      (refused : env.checkLevel (p.level + 1) = .error e) : Entering env p ref (.error e)
  | again {layout : Layout} (found : env.registry.get? ref = some layout)
      (fresh : ¬ (env.settings.guarded ∧ ref ∈ p.chain))
      (unlimited : env.settings.limit? = none) (entered : ref ∈ p.entered) :
      Entering env p ref (.error .endless)
  | passed {layout : Layout} (found : env.registry.get? ref = some layout)
      (fresh : ¬ (env.settings.guarded ∧ ref ∈ p.chain))
      (passed : env.checkLevel (p.level + 1) = .ok ()) : Entering env p ref (.ok (some layout))

omit [Host] in
theorem entering_enter (env : Env) (p : Place) (ref : String) :
    env.Entering p ref (env.enter p ref) := by
  unfold enter
  split
  · next missing => exact .undeclared missing
  · next layout found =>
    by_cases around : env.settings.guarded ∧ ref ∈ p.chain
    · rw [if_pos around]
      exact .circle found around
    · rw [if_neg around]
      cases hlevel : env.checkLevel (p.level + 1) with
      | error e => exact .deep found around hlevel
      | ok _ =>
          by_cases again : env.settings.limit? = none ∧ ref ∈ p.entered
          · simp only [if_pos again]
            exact .again found around again.1 again.2
          · simp only [if_neg again]
            exact .passed found around hlevel

/-- What is to be composed at a place, with each bound, is a part of composing any section that
was entered with the same data. -/
structure Inside (env : Env) (p : Place) (data : Value) (here : Nat → Outcome) : Prop where
  around : env.settings.guarded = true → ∀ s ∈ p.entered, s ∈ p.chain
  smaller : env.settings.guarded = false → env.settings.limit? = none → ∀ s ∈ p.entered,
    ∀ layout, env.registry.get? s = some layout → ∀ n,
      Finished (env.within n [] 0 data layout.rows) → ∃ k < n, Finished (here k)

namespace Inside
variable {p : Place} {data : Value} {here : Nat → Outcome}

theorem of_part {part : Nat → Outcome} (h : Inside env p data here)
    (hpart : ∀ k, Finished (here k) → Finished (part k)) : Inside env p data part := by
  refine ⟨h.around, fun hguarded hlimit s hs layout found n hn => ?_⟩
  obtain ⟨k, hk, hfinished⟩ := h.smaller hguarded hlimit s hs layout found n hn
  exact ⟨k, hk, hpart k hfinished⟩

theorem of_fresh (h : p.entered = []) : Inside env p data here :=
  ⟨fun _ => by simp [h], fun _ _ => by simp [h]⟩

theorem intoGroup {rows : List Row}
    (h : Inside env p data fun k => env.within k p.chain (p.level + 1) data rows) :
    Inside env p.intoGroup data fun k =>
      gather (env.rowWith (env.within k) p.intoGroup.chain p.intoGroup.level data) rows := by
  refine ⟨h.around, fun hguarded hlimit s hs layout found n hn => ?_⟩
  obtain ⟨k, hk, hfinished⟩ := h.smaller hguarded hlimit s hs layout found n hn
  obtain ⟨j, hj, hinner⟩ := exists_lt_finished hlimit hfinished
  exact ⟨j, hj.trans hk, hinner⟩

theorem intoSection {ref : String} {layout : Layout} (found : env.registry.get? ref = some layout)
    (h : Inside env p data fun k =>
      env.within k (p.chain ++ [ref]) (p.level + 1) data layout.rows) :
    Inside env (p.intoSection ref) data fun k => gather (env.rowWith (env.within k)
      (p.intoSection ref).chain (p.intoSection ref).level data) layout.rows := by
  constructor
  · intro hguarded s hs
    rcases List.mem_cons.1 hs with rfl | hs
    · exact List.mem_append_right _ List.mem_cons_self
    · exact List.mem_append_left _ (h.around hguarded s hs)
  · intro hguarded hlimit s hs layout' found' n hn
    rcases List.mem_cons.1 hs with rfl | hs
    · cases found.symm.trans found'
      rw [within_of_unguarded hguarded hlimit n [] (p.chain ++ [s]) 0 (p.level + 1)] at hn
      exact exists_lt_finished hlimit hn
    · obtain ⟨k, hk, hfinished⟩ := h.smaller hguarded hlimit s hs layout' found' n hn
      obtain ⟨j, hj, hinner⟩ := exists_lt_finished hlimit hfinished
      exact ⟨j, hj.trans hk, hinner⟩

/-- Where a section is entered again, no bound is enough: from each that were, a smaller one
would be. -/
theorem endless_of_entered {ref : String} {layout : Layout}
    (found : env.registry.get? ref = some layout)
    (fresh : ¬ (env.settings.guarded ∧ ref ∈ p.chain)) (hlimit : env.settings.limit? = none)
    (entered : ref ∈ p.entered)
    (h : Inside env p data fun k =>
      env.within k (p.chain ++ [ref]) (p.level + 1) data layout.rows) (n : Nat) :
    env.within n (p.chain ++ [ref]) (p.level + 1) data layout.rows = .error .endless := by
  have hguarded : env.settings.guarded = false := by
    by_contra hguarded
    rw [Bool.not_eq_false] at hguarded
    exact fresh ⟨hguarded, h.around hguarded ref entered⟩
  have hnone : ∀ m, ¬ Finished (env.within m [] 0 data layout.rows) := by
    intro m
    induction m using Nat.strong_induction_on with
    | _ m ih =>
        intro hm
        obtain ⟨k, hk, hfinished⟩ := h.smaller hguarded hlimit ref entered layout found m hm
        rw [within_of_unguarded hguarded hlimit k _ [] _ 0] at hfinished
        exact ih k hk hfinished
  rw [within_of_unguarded hguarded hlimit n _ [] _ 0]
  exact not_not.1 (hnone n)

end Inside

/-- One row at a place comes out as with every large enough bound. -/
def RowAgrees (env : Env) (p : Place) (data : Value) (row : Row) : Prop :=
  (Inside env p data fun k => env.rowWith (env.within k) p.chain p.level data row) →
    ∀ᶠ n in atTop, env.rowWith (env.within n) p.chain p.level data row =
      env.composeRow p data row

def RowsAgree (env : Env) (p : Place) (data : Value) (rows : List Row) : Prop :=
  (Inside env p data fun k => gather (env.rowWith (env.within k) p.chain p.level data) rows) →
    ∀ᶠ n in atTop, gather (env.rowWith (env.within n) p.chain p.level data) rows =
      env.composeRows p data rows

def ItemsAgree (env : Env) (p : Place) (items : List Value) (rows : List Row) : Prop :=
  p.entered = [] → ∀ᶠ n in atTop,
    gather (fun item => env.within n p.chain p.level item rows) items =
      env.composeItems p items rows

section equations
variable {p : Place} {data : Value}

theorem composeRow_group (children : List Row) : env.composeRow p data (.group children) =
    (env.checkLevel (p.level + 1)).bind fun _ =>
      (env.composeRows p.intoGroup data children).map fun es => [.row es .null] := by
  rw [composeRow]
  cases env.checkLevel (p.level + 1) with
  | error e => rfl
  | ok _ => cases env.composeRows p.intoGroup data children <;> rfl

theorem composeRow_iterator {path : String} {items : List Value} (rows : List Row)
    (h : Template.resolve data path = .list items) :
    env.composeRow p data (.iterator path rows) = env.composeItems p.intoItems items rows := by
  rw [composeRow]
  split
  · next found =>
    cases h.symm.trans found
    rfl
  · next missing => exact (missing items h).elim

theorem composeRow_iterator_of_no_list {path : String} (rows : List Row)
    (h : ∀ items, Template.resolve data path ≠ .list items) :
    env.composeRow p data (.iterator path rows) = .ok [] := by
  rw [composeRow]
  split
  · next found => exact (h _ found).elim
  · rfl

theorem composeRow_section (ref : String) : env.composeRow p data (.sectionRef ref) =
    (env.enter p ref).bind fun found => found.elim (.ok []) fun layout =>
      env.composeRows (p.intoSection ref) data layout.rows := by
  rw [composeRow]
  split
  · next e henter => rw [henter]; rfl
  · next henter => rw [henter]; rfl
  · next layout henter => rw [henter]; rfl

theorem composeRows_cons (row : Row) (rest : List Row) : env.composeRows p data (row :: rest) =
    (env.composeRow p data row).bind fun here =>
      (env.composeRows p data rest).map (here ++ ·) := by
  rw [composeRows]
  cases env.composeRow p data row with
  | error e => rfl
  | ok here => cases env.composeRows p data rest <;> rfl

theorem composeItems_cons (item : Value) (rest : List Value) (rows : List Row) :
    env.composeItems p (item :: rest) rows =
      ((env.checkLevel p.level).bind fun _ => env.composeRows p item rows).bind fun here =>
        (env.composeItems p rest rows).map (here ++ ·) := by
  rw [composeItems]
  cases env.checkLevel p.level with
  | error e => rfl
  | ok _ =>
      cases env.composeRows p item rows with
      | error e => rfl
      | ok here => cases env.composeItems p rest rows <;> rfl

end equations

section steps
variable {p : Place} {data : Value}

theorem rowAgrees_group {children : List Row} (ih : env.RowsAgree p.intoGroup data children) :
    env.RowAgrees p data (.group children) := by
  intro h
  have hinside : Inside env p data fun k => env.within k p.chain (p.level + 1) data children :=
    h.of_part fun k hk => by
      rw [rowWith_group] at hk
      exact hk.of_map
  have hrows : ∀ᶠ n in atTop, env.within n p.chain (p.level + 1) data children =
      (env.checkLevel (p.level + 1)).bind fun _ => env.composeRows p.intoGroup data children :=
    eventually_within ((ih hinside.intoGroup).mono fun n hn => by
      rw [← hn]
      rfl)
  filter_upwards [hrows] with n hn
  rw [rowWith_group, hn, composeRow_group]
  cases env.checkLevel (p.level + 1) <;> rfl

theorem rowAgrees_iterator {path : String} {rows : List Row} {items : List Value}
    (hitems : Template.resolve data path = .list items)
    (ih : env.ItemsAgree p.intoItems items rows) :
    env.RowAgrees p data (.iterator path rows) := by
  intro _
  filter_upwards [ih rfl] with n hn
  rw [composeRow_iterator rows hitems, ← hn]
  simp only [rowWith, hitems]
  rfl

theorem rowAgrees_iterator_of_no_list {path : String} {rows : List Row}
    (h : ∀ items, Template.resolve data path ≠ .list items) :
    env.RowAgrees p data (.iterator path rows) := by
  refine fun _ => .of_forall fun n => ?_
  rw [composeRow_iterator_of_no_list rows h, rowWith]
  split
  · next found => exact (h _ found).elim
  · rfl

theorem rowAgrees_undeclared {ref : String} (henter : env.enter p ref = .ok none) :
    env.RowAgrees p data (.sectionRef ref) := by
  have hentering := env.entering_enter p ref
  rw [henter] at hentering
  cases hentering with
  | undeclared missing =>
      refine fun _ => .of_forall fun n => ?_
      rw [composeRow_section, henter]
      simp only [rowWith, missing]
      rfl

theorem rowAgrees_refused {ref : String} {e : Error} (henter : env.enter p ref = .error e) :
    env.RowAgrees p data (.sectionRef ref) := by
  intro h
  have hentering := env.entering_enter p ref
  rw [henter] at hentering
  rw [composeRow_section, henter]
  cases hentering with
  | circle found around =>
      refine .of_forall fun n => ?_
      simp only [rowWith, found, if_pos around]
      rfl
  | deep found fresh refused =>
      simp only [rowWith_section found fresh]
      refine eventually_within (.of_forall fun n => ?_)
      rw [refused]
      rfl
  | again found fresh unlimited entered =>
      simp only [rowWith_section found fresh] at h ⊢
      exact .of_forall fun n => h.endless_of_entered found fresh unlimited entered n

theorem rowAgrees_section {ref : String} {layout : Layout}
    (henter : env.enter p ref = .ok (some layout))
    (ih : env.RowsAgree (p.intoSection ref) data layout.rows) :
    env.RowAgrees p data (.sectionRef ref) := by
  intro h
  have hentering := env.entering_enter p ref
  rw [henter] at hentering
  cases hentering with
  | passed found fresh passed =>
      simp only [rowWith_section found fresh] at h ⊢
      refine eventually_within ((ih (h.intoSection found)).mono fun n hn => ?_)
      rw [passed, composeRow_section, henter]
      exact hn

theorem itemsAgree_cons {rows : List Row} {item : Value} {rest : List Value}
    (hitem : env.RowsAgree p item rows) (hrest : env.ItemsAgree p rest rows) :
    env.ItemsAgree p (item :: rest) rows := by
  intro hentered
  have hhead : ∀ᶠ n in atTop, env.within n p.chain p.level item rows =
      (env.checkLevel p.level).bind fun _ => env.composeRows p item rows :=
    eventually_within ((hitem (.of_fresh hentered)).mono fun n hn => by rw [hn])
  filter_upwards [hhead, hrest hentered] with n hn hm
  rw [gather_cons, hn, hm, composeItems_cons]

/-- The rest of some rows is a part of the task only where the first row did not fail, which every
bound that is enough for it shows alike. -/
theorem rowsAgree_cons {row : Row} {rest : List Row} (hrow : env.RowAgrees p data row)
    (hrest : env.RowsAgree p data rest) : env.RowsAgree p data (row :: rest) := by
  intro h
  have hhead := hrow (h.of_part fun k hk => hk.of_gather_head)
  simp only [gather_cons, composeRows_cons]
  cases hr : env.composeRow p data row with
  | error e =>
      rw [hr] at hhead
      filter_upwards [hhead] with n hn
      rw [hn]
      rfl
  | ok here =>
      rw [hr] at hhead
      have hinside : Inside env p data fun k =>
          gather (env.rowWith (env.within k) p.chain p.level data) rest := by
        refine h.of_part fun k hk => ?_
        obtain ⟨n, hn, hkn⟩ := (hhead.and (eventually_ge_atTop k)).exists
        rw [rowWith_mono hk.of_gather_head hkn] at hn
        exact hk.of_gather_tail hn
      filter_upwards [hhead, hrest hinside] with n hn hm
      rw [hn, hm]

end steps

theorem eventually_composeRows (p : Place) (data : Value) (rows : List Row) :
    env.RowsAgree p data rows := by
  refine (composeRow.mutual_induct env env.RowAgrees env.ItemsAgree env.RowsAgree
    ?_ ?_ ?_ ?_ ?_ ?_ ?_ ?_ ?_ ?_ ?_ ?_ ?_).2.2 p data rows
  · exact fun p data template align flex style _ => .of_forall fun n => by rw [composeRow]; rfl
  · exact fun p data template barcodeType _ => .of_forall fun n => by rw [composeRow]; rfl
  · exact fun p data children ih => rowAgrees_group ih
  · exact fun p data path rows items hitems ih => rowAgrees_iterator hitems ih
  · exact fun p data path rows h => rowAgrees_iterator_of_no_list h
  · exact fun p data ref e henter => rowAgrees_refused henter
  · exact fun p data ref henter => rowAgrees_undeclared henter
  · exact fun p data ref layout henter ih => rowAgrees_section henter ih
  · exact fun p data payload _ => .of_forall fun n => by rw [composeRow]; rfl
  · exact fun p rows _ => .of_forall fun n => by rw [composeItems]; rfl
  · exact fun p rows item rest hitem hrest => itemsAgree_cons hitem hrest
  · exact fun p data _ => .of_forall fun n => by rw [composeRows]; rfl
  · exact fun p data row rest hrow hrest => rowsAgree_cons hrow hrest

omit [Host] in
theorem checkLevel_zero : env.checkLevel 0 = .ok () := by
  rw [checkLevel]
  split <;> rfl

/-- Composition is composition with any large enough bound. -/
theorem eventually_layoutWithin (layout : Layout) (data : Value) (chain : List String) :
    ∀ᶠ n in atTop, env.layoutWithin n layout data chain = env.compose layout data chain := by
  refine eventually_within ?_
  rw [checkLevel_zero]
  exact eventually_composeRows ⟨startChain layout chain, [], 0⟩ data layout.rows (.of_fresh rfl)

/-- A bound that is large enough gives what composition gives. -/
theorem compose_eq_layoutWithin {n : Nat} {layout : Layout} {data : Value} {chain : List String}
    (h : Finished (env.layoutWithin n layout data chain)) :
    env.compose layout data chain = env.layoutWithin n layout data chain := by
  obtain ⟨m, hm, hnm⟩ :=
    ((eventually_layoutWithin layout data chain).and (eventually_ge_atTop n)).exists
  rw [← hm]
  exact within_mono h hnm

theorem compose_eq_of_layoutWithin {n : Nat} {layout : Layout} {data : Value}
    {chain : List String} {r : Outcome} (h : env.layoutWithin n layout data chain = r)
    (hr : Finished r) : env.compose layout data chain = r :=
  (compose_eq_layoutWithin (h ▸ hr)).trans h

end Env
end Receipt.Compose
