import Receipt.Proofs.Compose.Agreement

/-!
# Two compositions side by side

Two compositions with the same settings go on side by side as long as each row finds the same in
both: the same text for its template, the same list at its path, the same section under its name.
`Alike` says so of one row, given a relation that carries on to whatever the row leads to. A
relation that every row of related rows keeps up is enough for the same outcome: `compose_alike`.
-/
namespace Receipt.Compose

/-- What two compositions are compared at: their data and the rows that both compose. -/
abbrev Pairing := Value → Value → List Row → Prop

/-- A row finds the same in two environments with two data values, and leads to rows that are
related again. -/
def Alike [Host] (env env' : Env) (Related : Pairing) (data data' : Value) : Row → Prop
  | .text template _ _ _ => env'.expand template data' = env.expand template data
  | .barcode template _ => env'.expand template data' = env.expand template data
  | .group children => Related data data' children
  | .iterator path rows =>
    Template.resolve data' path = Template.resolve data path ∧ ∀ item, Related item item rows
  | .sectionRef ref =>
    env'.registry.get? ref = env.registry.get? ref ∧
      ∀ layout, env.registry.get? ref = some layout → Related data data' layout.rows
  | .passthrough _ => True

namespace Env
variable [Host] {env env' : Env} {Related : Pairing}

omit [Host] in
theorem checkLevel_of_settings (hsettings : env'.settings = env.settings) (level : Nat) :
    env'.checkLevel level = env.checkLevel level := by
  rw [checkLevel, checkLevel, hsettings]

theorem rowWith_alike (hsettings : env'.settings = env.settings)
    {inside inside' : List String → Nat → Value → List Row → Outcome}
    (hinside : ∀ chain level data data' rows, Related data data' rows →
      inside' chain level data' rows = inside chain level data rows)
    {data data' : Value} {row : Row} (h : Alike env env' Related data data' row)
    (chain : List String) (level : Nat) :
    env'.rowWith inside' chain level data' row = env.rowWith inside chain level data row := by
  cases row with
  | text template align flex style =>
      have hexpand : env'.expand template data' = env.expand template data := h
      rw [rowWith, rowWith, hexpand]
  | barcode template barcodeType =>
      have hexpand : env'.expand template data' = env.expand template data := h
      rw [rowWith, rowWith, hexpand]
  | group children =>
      rw [rowWith_group, rowWith_group, hinside chain (level + 1) data data' children h]
  | iterator path rows =>
      obtain ⟨hresolve, hrelated⟩ := h
      rw [rowWith, rowWith, hresolve]
      split
      · exact gather_congr fun item _ => hinside chain (level + 1) item item rows (hrelated item)
      · rfl
  | sectionRef ref =>
      obtain ⟨hfound, hrelated⟩ := h
      rw [rowWith, rowWith, hfound, hsettings]
      split
      · rfl
      · next layout found =>
        rw [hinside (chain ++ [ref]) (level + 1) data data' layout.rows (hrelated layout found)]
  | passthrough payload => rfl

theorem within_alike (hsettings : env'.settings = env.settings)
    (hstep : ∀ data data' rows, Related data data' rows →
      ∀ row ∈ rows, Alike env env' Related data data' row)
    (n : Nat) (chain : List String) (level : Nat) {data data' : Value} {rows : List Row}
    (h : Related data data' rows) :
    env'.within n chain level data' rows = env.within n chain level data rows := by
  induction n generalizing chain level data data' rows with
  | zero => rfl
  | succ n ih =>
      have hinside : ∀ chain level data data' rows, Related data data' rows →
          env'.within n chain level data' rows = env.within n chain level data rows :=
        fun chain level _ _ _ h => ih chain level h
      have hrows : gather (env'.rowWith (env'.within n) chain level data') rows =
          gather (env.rowWith (env.within n) chain level data) rows :=
        gather_congr fun row hrow =>
          rowWith_alike hsettings hinside (hstep data data' rows h row hrow) chain level
      rw [within_succ, within_succ, checkLevel_of_settings hsettings, hrows]

/-- Two compositions that find the same all along have the same outcome. -/
theorem compose_alike (hsettings : env'.settings = env.settings)
    (hstep : ∀ data data' rows, Related data data' rows →
      ∀ row ∈ rows, Alike env env' Related data data' row)
    {layout : Layout} {data data' : Value} (h : Related data data' layout.rows)
    (chain : List String) :
    env'.compose layout data' chain = env.compose layout data chain := by
  obtain ⟨n, hn, hn'⟩ := ((env.eventually_layoutWithin layout data chain).and
    (env'.eventually_layoutWithin layout data' chain)).exists
  rw [← hn, ← hn']
  exact within_alike hsettings hstep n (startChain layout chain) 0 h

end Env
end Receipt.Compose
