import Receipt.Compose
import Receipt.Proofs.Except

/-!
# Composition with bounded nesting

`Env.within n` composes rows by the rules alone, with at most `n` lists of rows open within one
another. It says `.endless` when more would have to be opened, and remembers nothing of the data
that a section was entered with. So composition ends if some bound is enough, and goes on for ever
if none is.

A larger bound only changes an answer that the bound was too small for, and so do looser guards,
unless a guard was the answer: `within_looser`.
-/
namespace Receipt

/-- The rows one level deeper that a row leads to, and the data that they are composed against. -/
inductive Registry.LeadsTo (registry : Registry) (data : Value) : Row → Value → List Row → Prop
  | group (children : List Row) : LeadsTo registry data (.group children) data children
  | item {path : String} {items : List Value} {item : Value} (rows : List Row)
      (found : Template.resolve data path = .list items) (mem : item ∈ items) :
      LeadsTo registry data (.iterator path rows) item rows
  | reference {ref : String} {layout : Layout} (found : registry.get? ref = some layout) :
      LeadsTo registry data (.sectionRef ref) data layout.rows

namespace Compose

abbrev Outcome := Except Error (List Element)

/-- What comes of all members in order, up to the first failure. -/
def gather {α : Type} (f : α → Outcome) : List α → Outcome
  | [] => .ok []
  | a :: as => do
    let here ← f a
    let more ← gather f as
    return here ++ more

namespace Env
variable [Host]

/-- What a row gives if `inside` composes the rows that it leads to: with the sections around them,
their level and their data. -/
def rowWith (env : Env) (inside : List String → Nat → Value → List Row → Outcome)
    (chain : List String) (level : Nat) (data : Value) : Row → Outcome
  | .text template align flex style => do
    let text ← env.expand template data
    return [.text text align flex style]
  | .barcode template barcodeType => do
    let code ← env.expand template data
    return [.barcode code barcodeType .null]
  | .group children => do
    let es ← inside chain (level + 1) data children
    return [.row es .null]
  | .iterator path rows =>
    match Template.resolve data path with
    | .list items => gather (fun item => inside chain (level + 1) item rows) items
    | _ => .ok []
  | .sectionRef ref =>
    match env.registry.get? ref with
    | none => .ok []
    | some layout =>
      if env.settings.guarded ∧ ref ∈ chain then .error (.cyclic (chain ++ [ref]))
      else inside (chain ++ [ref]) (level + 1) data layout.rows
  | .passthrough payload => .ok [.passthrough payload]

/-- Composes rows with at most so many lists of rows open within one another. -/
def within (env : Env) : Nat → List String → Nat → Value → List Row → Outcome
  | 0, _, _, _, _ => .error .endless
  | n + 1, chain, level, data, rows => do
    env.checkLevel level
    gather (env.rowWith (env.within n) chain level data) rows

/-- Composes a layout in the same way. -/
def layoutWithin (env : Env) (n : Nat) (layout : Layout) (data : Value) (chain : List String) :
    Outcome :=
  env.within n (startChain layout chain) 0 data layout.rows

end Env

/-- The bound on nesting was large enough. -/
def Finished (r : Outcome) : Prop := r ≠ .error .endless

theorem Finished.ok (es : List Element) : Finished (.ok es) := nofun

/-- The second outcome is the first, unless the first is an error of a certain kind. -/
def Unless (bad : Error → Prop) (r r' : Outcome) : Prop :=
  (∀ e, r = .error e → ¬ bad e) → r' = r

theorem Unless.of_eq {bad : Error → Prop} {r r' : Outcome} (h : r' = r) : Unless bad r r' :=
  fun _ => h

theorem Unless.of_bad {bad : Error → Prop} {e : Error} (h : bad e) (r : Outcome) :
    Unless bad (.error e) r :=
  fun hno => (hno e rfl h).elim

theorem Unless.map {bad : Error → Prop} {r r' : Outcome} (h : Unless bad r r')
    (f : List Element → List Element) : Unless bad (r.map f) (r'.map f) := by
  intro hno
  rw [h fun e he => hno e (by rw [he]; rfl)]

theorem Unless.bind {bad : Error → Prop} {r r' : Outcome} (h : Unless bad r r')
    {f g : List Element → Outcome} (hfg : ∀ es, Unless bad (f es) (g es)) :
    Unless bad (r.bind f) (r'.bind g) := by
  cases r with
  | error e =>
      by_cases hbad : bad e
      · exact .of_bad hbad _
      · rw [h fun e' he' => Except.error.inj he' ▸ hbad]
        exact .of_eq rfl
  | ok es =>
      rw [h nofun]
      exact hfg es

theorem gather_cons {α : Type} (f : α → Outcome) (a : α) (as : List α) :
    gather f (a :: as) = (f a).bind fun here => (gather f as).map (here ++ ·) := by
  rw [gather]
  cases f a with
  | error e => rfl
  | ok here => cases gather f as <;> rfl

theorem gather_congr {α : Type} {f g : α → Outcome} {as : List α} (h : ∀ a ∈ as, f a = g a) :
    gather f as = gather g as := by
  induction as with
  | nil => rfl
  | cons a as ih =>
      rw [gather_cons, gather_cons, h a List.mem_cons_self,
        ih fun b hb => h b (List.mem_cons_of_mem _ hb)]

theorem gather_unless {α : Type} {bad : Error → Prop} {f g : α → Outcome} {as : List α}
    (h : ∀ a ∈ as, Unless bad (f a) (g a)) : Unless bad (gather f as) (gather g as) := by
  induction as with
  | nil => exact .of_eq rfl
  | cons a as ih =>
      have hhead := h a List.mem_cons_self
      have htail := ih fun b hb => h b (List.mem_cons_of_mem _ hb)
      rw [gather_cons, gather_cons]
      exact hhead.bind fun here => htail.map (here ++ ·)

/-- One environment guards against less than another, and what it no longer guards against is of a
certain kind. -/
structure Looser (bad : Error → Prop) (env env' : Env) : Prop where
  registry : env'.registry = env.registry
  expander : env'.settings.expander = env.settings.expander
  guarded : env'.settings.guarded = env.settings.guarded ∨
    env'.settings.guarded = false ∧ ∀ chain, bad (.cyclic chain)
  limit : env'.settings.limit? = env.settings.limit? ∨
    env'.settings.limit? = none ∧ ∀ limit, bad (.tooDeep limit)

theorem Looser.refl (bad : Error → Prop) (env : Env) : Looser bad env env :=
  ⟨rfl, rfl, .inl rfl, .inl rfl⟩

/-- The same sections are around some rows as before, or fewer and circles are of a certain kind. -/
def Fewer (bad : Error → Prop) (chain chain' : List String) : Prop :=
  chain' = chain ∨ chain' ⊆ chain ∧ ∀ names, bad (.cyclic names)

theorem Fewer.append {bad : Error → Prop} {chain chain' : List String}
    (h : Fewer bad chain chain') (name : String) :
    Fewer bad (chain ++ [name]) (chain' ++ [name]) := by
  rcases h with rfl | ⟨hsub, hbad⟩
  · exact .inl rfl
  · refine .inr ⟨?_, hbad⟩
    intro other hother
    rcases List.mem_append.1 hother with hother | hother
    · exact List.mem_append_left _ (hsub hother)
    · exact List.mem_append_right _ hother

namespace Env
variable [Host] {env env' : Env}

theorem rowWith_text (inside : List String → Nat → Value → List Row → Outcome)
    (chain : List String) (level : Nat) (data template align flex style : Value) :
    env.rowWith inside chain level data (.text template align flex style) =
      (env.expand template data).map fun text => [.text text align flex style] := by
  rw [rowWith]
  cases env.expand template data <;> rfl

theorem rowWith_barcode (inside : List String → Nat → Value → List Row → Outcome)
    (chain : List String) (level : Nat) (data template barcodeType : Value) :
    env.rowWith inside chain level data (.barcode template barcodeType) =
      (env.expand template data).map fun code => [.barcode code barcodeType .null] := by
  rw [rowWith]
  cases env.expand template data <;> rfl

theorem rowWith_group (inside : List String → Nat → Value → List Row → Outcome)
    (chain : List String) (level : Nat) (data : Value) (children : List Row) :
    env.rowWith inside chain level data (.group children) =
      (inside chain (level + 1) data children).map fun es => [.row es .null] := by
  rw [rowWith]
  cases inside chain (level + 1) data children <;> rfl

theorem within_succ (n : Nat) (chain : List String) (level : Nat) (data : Value)
    (rows : List Row) : env.within (n + 1) chain level data rows =
      (env.checkLevel level).bind fun _ =>
        gather (env.rowWith (env.within n) chain level data) rows := by
  rw [within]
  cases env.checkLevel level <;> rfl

theorem expand_eq_of_looser {bad : Error → Prop} (h : Looser bad env env')
    (template data : Value) : env'.expand template data = env.expand template data := by
  rw [expand, expand, h.expander]

omit [Host] in
theorem checkLevel_of_looser {bad : Error → Prop} (h : Looser bad env env') (level : Nat) :
    env'.checkLevel level = env.checkLevel level ∨
      ∃ e, env.checkLevel level = .error e ∧ bad e := by
  rcases h.limit with hlimit | ⟨hnone, hbad⟩
  · exact .inl (by rw [checkLevel, checkLevel, hlimit])
  · cases hl : env.settings.limit? with
    | none => exact .inl (by rw [checkLevel, checkLevel, hl, hnone])
    | some bound =>
        obtain ⟨deepest, limit⟩ := bound
        simp only [checkLevel, hl, hnone]
        by_cases hlevel : deepest < level
        · exact .inr ⟨.tooDeep limit, if_pos hlevel, hbad limit⟩
        · exact .inl (if_neg hlevel).symm

theorem rowWith_unless {bad : Error → Prop} (h : Looser bad env env')
    {inside inside' : List String → Nat → Value → List Row → Outcome}
    (hinside : ∀ chain chain', Fewer bad chain chain' → ∀ level data rows,
      Unless bad (inside chain level data rows) (inside' chain' level data rows))
    {chain chain' : List String} (hchain : Fewer bad chain chain') (level : Nat) (data : Value)
    (row : Row) :
    Unless bad (env.rowWith inside chain level data row)
      (env'.rowWith inside' chain' level data row) := by
  cases row with
  | text template align flex style =>
      exact .of_eq (by rw [rowWith, rowWith, expand_eq_of_looser h])
  | barcode template barcodeType =>
      exact .of_eq (by rw [rowWith, rowWith, expand_eq_of_looser h])
  | group children =>
      rw [rowWith_group, rowWith_group]
      exact (hinside _ _ hchain _ _ _).map _
  | iterator path rows =>
      rw [rowWith, rowWith]
      split
      · exact gather_unless fun item _ => hinside _ _ hchain _ _ _
      · exact .of_eq rfl
  | sectionRef ref =>
      rw [rowWith, rowWith, h.registry]
      split
      · exact .of_eq rfl
      · next layout _ =>
        by_cases hcyclic : env.settings.guarded ∧ ref ∈ chain
        · rw [if_pos hcyclic]
          rcases h.guarded with hguarded | ⟨-, hbad⟩
          · rcases hchain with rfl | ⟨-, hbad⟩
            · rw [hguarded, if_pos hcyclic]
              exact .of_eq rfl
            · exact .of_bad (hbad _) _
          · exact .of_bad (hbad _) _
        · have hcyclic' : ¬ (env'.settings.guarded ∧ ref ∈ chain') := by
            rintro ⟨hguarded', hmem⟩
            have hguarded : env.settings.guarded = true := by
              rcases h.guarded with hsame | ⟨hoff, -⟩
              · exact hsame ▸ hguarded'
              · rw [hoff] at hguarded'
                cases hguarded'
            have hmem' : ref ∈ chain := by
              rcases hchain with rfl | ⟨hsub, -⟩
              · exact hmem
              · exact hsub hmem
            exact hcyclic ⟨hguarded, hmem'⟩
          rw [if_neg hcyclic, if_neg hcyclic']
          exact hinside _ _ (hchain.append ref) _ _ _
  | passthrough payload => exact .of_eq rfl

/-- Looser guards, fewer sections around the rows and a larger bound change nothing but the answers
that a guard or the bound gave. -/
theorem within_unless {bad : Error → Prop} (h : Looser bad env env') {n m : Nat}
    (hbound : m = n ∨ n ≤ m ∧ bad .endless) {chain chain' : List String}
    (hchain : Fewer bad chain chain') (level : Nat) (data : Value) (rows : List Row) :
    Unless bad (env.within n chain level data rows) (env'.within m chain' level data rows) := by
  induction n generalizing m chain chain' level data rows with
  | zero =>
      rcases hbound with rfl | ⟨-, hendless⟩
      · exact .of_eq rfl
      · exact .of_bad hendless _
  | succ n ih =>
      obtain ⟨m, rfl, hinner⟩ : ∃ k, m = k + 1 ∧ (k = n ∨ n ≤ k ∧ bad .endless) := by
        rcases hbound with rfl | ⟨hnm, hendless⟩
        · exact ⟨n, rfl, .inl rfl⟩
        · exact ⟨m - 1, by omega, .inr ⟨by omega, hendless⟩⟩
      have hrow : ∀ row ∈ rows, Unless bad (env.rowWith (env.within n) chain level data row)
          (env'.rowWith (env'.within m) chain' level data row) := fun row _ =>
        rowWith_unless h (fun _ _ hchain => ih hinner hchain) hchain level data row
      rw [within_succ, within_succ]
      rcases checkLevel_of_looser h level with hlevel | ⟨e, hlevel, hbad⟩
      · rw [hlevel]
        cases env.checkLevel level with
        | error e => exact .of_eq rfl
        | ok _ => exact gather_unless hrow
      · rw [hlevel]
        exact .of_bad hbad _

/-- Looser guards and a larger bound, where the same sections are around the rows. -/
theorem within_looser {bad : Error → Prop} (h : Looser bad env env') (hendless : bad .endless)
    {n m : Nat} (hnm : n ≤ m) (chain : List String) (level : Nat) (data : Value)
    (rows : List Row) :
    Unless bad (env.within n chain level data rows) (env'.within m chain level data rows) :=
  within_unless h (.inr ⟨hnm, hendless⟩) (.inl rfl) level data rows

theorem rowWith_mono {n m : Nat} {chain : List String} {level : Nat} {data : Value} {row : Row}
    (h : Finished (env.rowWith (env.within n) chain level data row)) (hnm : n ≤ m) :
    env.rowWith (env.within m) chain level data row =
      env.rowWith (env.within n) chain level data row :=
  rowWith_unless (.refl (· = .endless) env)
    (fun _ _ => within_unless (.refl (· = .endless) env) (.inr ⟨hnm, rfl⟩)) (.inl rfl)
    level data row fun _ he heq => h (heq ▸ he)

theorem within_mono {n m : Nat} {chain : List String} {level : Nat} {data : Value}
    {rows : List Row} (h : Finished (env.within n chain level data rows)) (hnm : n ≤ m) :
    env.within m chain level data rows = env.within n chain level data rows :=
  within_looser (.refl (· = .endless) env) rfl hnm chain level data rows
    fun _ he heq => h (heq ▸ he)

omit [Host] in
theorem checkLevel_of_unlimited (hlimit : env.settings.limit? = none) (level : Nat) :
    env.checkLevel level = .ok () := by
  rw [checkLevel, hlimit]

/-- Without a limit the level of some rows does not matter, and without any guard neither do the
sections around them. -/
theorem within_of_unlimited (hlimit : env.settings.limit? = none) (n : Nat)
    {chain chain' : List String} (hchain : chain' = chain ∨ env.settings.guarded = false)
    (level level' : Nat) (data : Value) (rows : List Row) :
    env.within n chain level data rows = env.within n chain' level' data rows := by
  induction n generalizing chain chain' level level' data rows with
  | zero => rfl
  | succ n ih =>
      rw [within_succ, within_succ, checkLevel_of_unlimited hlimit, checkLevel_of_unlimited hlimit]
      refine gather_congr fun row _ => ?_
      cases row with
      | text | barcode | passthrough => rfl
      | group children => rw [rowWith_group, rowWith_group, ih hchain _ (level' + 1)]
      | iterator path rows =>
          rw [rowWith, rowWith]
          split
          · exact gather_congr fun item _ => ih hchain _ _ item rows
          · rfl
      | sectionRef ref =>
          rw [rowWith, rowWith]
          split
          · rfl
          · next layout _ =>
            rcases hchain with rfl | hguarded
            · split
              · rfl
              · exact ih (.inl rfl) _ _ data layout.rows
            · rw [if_neg (by simp [hguarded]), if_neg (by simp [hguarded])]
              exact ih (.inr hguarded) _ _ data layout.rows

theorem within_of_unguarded (hguarded : env.settings.guarded = false)
    (hlimit : env.settings.limit? = none) (n : Nat) (chain chain' : List String)
    (level level' : Nat) (data : Value) (rows : List Row) :
    env.within n chain level data rows = env.within n chain' level' data rows :=
  within_of_unlimited hlimit n (.inr hguarded) level level' data rows

/-- The rows that a row leads to, and the sections around them. -/
def opens (env : Env) (chain : List String) : Row → Option (List String × List Row)
  | .group children => some (chain, children)
  | .iterator _ rows => some (chain, rows)
  | .sectionRef ref =>
    match env.registry.get? ref with
    | none => none
    | some layout =>
      if env.settings.guarded ∧ ref ∈ chain then none else some (chain ++ [ref], layout.rows)
  | _ => none

/-- A row is refused: it refers to a section around it. -/
structure Closes (env : Env) (chain : List String) (row : Row) (ref : String) : Prop where
  row : row = .sectionRef ref
  declared : env.registry.get? ref ≠ none
  guarded : env.settings.guarded = true
  around : ref ∈ chain

end Env

theorem gather_eq_error {α : Type} {f : α → Outcome} {as : List α} {e : Error}
    (h : gather f as = .error e) : ∃ a ∈ as, f a = .error e := by
  induction as with
  | nil => cases h
  | cons a as ih =>
      rw [gather_cons] at h
      rcases bind_eq_error h with hhead | ⟨here, -, htail⟩
      · exact ⟨a, List.mem_cons_self, hhead⟩
      · obtain ⟨b, hmem, hb⟩ := ih (map_eq_error htail)
        exact ⟨b, List.mem_cons_of_mem _ hmem, hb⟩

theorem gather_eq_ok {α : Type} {f : α → Outcome} {as : List α} {es : List Element}
    (h : gather f as = .ok es) : ∀ a ∈ as, ∃ here, f a = .ok here := by
  induction as generalizing es with
  | nil => nofun
  | cons a as ih =>
      rw [gather_cons] at h
      obtain ⟨here, hhead, htail⟩ := bind_eq_ok h
      obtain ⟨more, hmore, -⟩ := map_eq_ok htail
      intro b hb
      rcases List.mem_cons.1 hb with rfl | hb
      · exact ⟨here, hhead⟩
      · exact ih hmore b hb

namespace Env
variable [Host] {env : Env}

theorem expand_eq_error {template data : Value} {e : Error}
    (h : env.expand template data = .error e) : ∃ cause, e = .template cause := by
  rw [expand] at h
  split at h
  · cases h
  · next cause _ =>
    cases h
    exact ⟨cause, rfl⟩

/-- A row fails for its template, as a circle, or for the rows that it leads to. -/
theorem rowWith_eq_error {inside : List String → Nat → Value → List Row → Outcome}
    {chain : List String} {level : Nat} {data : Value} {row : Row} {e : Error}
    (h : env.rowWith inside chain level data row = .error e) :
    (∃ cause, e = .template cause) ∨
    (∃ ref, env.Closes chain row ref ∧ e = .cyclic (chain ++ [ref])) ∨
    ∃ next ∈ env.opens chain row, ∃ data', env.registry.LeadsTo data row data' next.2 ∧
      inside next.1 (level + 1) data' next.2 = .error e := by
  cases row with
  | text template align flex style =>
      rw [rowWith_text] at h
      exact .inl (expand_eq_error (map_eq_error h))
  | barcode template barcodeType =>
      rw [rowWith_barcode] at h
      exact .inl (expand_eq_error (map_eq_error h))
  | group children =>
      rw [rowWith_group] at h
      exact .inr (.inr ⟨_, rfl, data, .group children, map_eq_error h⟩)
  | iterator path rows =>
      rw [rowWith] at h
      split at h
      · next items found =>
        obtain ⟨item, hmem, hitem⟩ := gather_eq_error h
        exact .inr (.inr ⟨_, rfl, item, .item rows found hmem, hitem⟩)
      · cases h
  | sectionRef ref =>
      rw [rowWith] at h
      split at h
      · cases h
      · next layout found =>
        split at h
        · next hcyclic =>
          cases h
          exact .inr (.inl ⟨ref, ⟨rfl, by simp [found], hcyclic.1, hcyclic.2⟩, rfl⟩)
        · next hcyclic =>
          refine .inr (.inr ⟨(chain ++ [ref], layout.rows), ?_, data, .reference found, h⟩)
          simp [opens, found, hcyclic]
  | passthrough payload => cases h

/-- Rows fail for their level, or one of them fails. -/
theorem within_eq_error {n : Nat} {chain : List String} {level : Nat} {data : Value}
    {rows : List Row} {e : Error} (h : env.within (n + 1) chain level data rows = .error e) :
    env.checkLevel level = .error e ∨ env.checkLevel level = .ok () ∧
      ∃ row ∈ rows, env.rowWith (env.within n) chain level data row = .error e := by
  rw [within_succ] at h
  rcases bind_eq_error h with hlevel | ⟨_, hlevel, hrows⟩
  · exact .inl hlevel
  · exact .inr ⟨hlevel, gather_eq_error hrows⟩

theorem within_eq_ok {n : Nat} {chain : List String} {level : Nat} {data : Value}
    {rows : List Row} {es : List Element}
    (h : env.within (n + 1) chain level data rows = .ok es) :
    env.checkLevel level = .ok () ∧
      gather (env.rowWith (env.within n) chain level data) rows = .ok es := by
  rw [within_succ] at h
  obtain ⟨_, hlevel, hrows⟩ := bind_eq_ok h
  exact ⟨hlevel, hrows⟩

/-- Where a row does not fail, nothing that it leads to does, with the same sections around it and
perhaps one more. -/
theorem rowWith_eq_ok {inside : List String → Nat → Value → List Row → Outcome}
    {chain : List String} {level : Nat} {data data' : Value} {row : Row} {rows : List Row}
    {es : List Element} (h : env.rowWith inside chain level data row = .ok es)
    (hleads : env.registry.LeadsTo data row data' rows) :
    ∃ chain' es', chain ⊆ chain' ∧ inside chain' (level + 1) data' rows = .ok es' := by
  cases hleads with
  | group children =>
      rw [rowWith_group] at h
      obtain ⟨es', hinside, -⟩ := map_eq_ok h
      exact ⟨chain, es', List.Subset.refl chain, hinside⟩
  | item rows found mem =>
      simp only [rowWith, found] at h
      obtain ⟨es', hitem⟩ := gather_eq_ok h _ mem
      exact ⟨chain, es', List.Subset.refl chain, hitem⟩
  | @reference ref layout found =>
      simp only [rowWith, found] at h
      split at h
      · cases h
      · exact ⟨chain ++ [ref], es, List.subset_append_left chain [ref], h⟩

omit [Host] in
theorem checkLevel_eq_error {level : Nat} {e : Error} (h : env.checkLevel level = .error e) :
    ∃ deepest limit, env.settings.limit? = some (deepest, limit) ∧ deepest < level ∧
      e = .tooDeep limit := by
  rw [checkLevel] at h
  split at h
  · cases h
  · next deepest limit hlimit =>
    split at h
    · next hlt =>
      cases h
      exact ⟨deepest, limit, hlimit, hlt, rfl⟩
    · cases h

end Env

end Compose
end Receipt
