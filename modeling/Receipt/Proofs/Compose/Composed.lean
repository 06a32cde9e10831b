import Receipt.Host.Standard
import Receipt.Proofs.Compose.Agreement
import Receipt.Proofs.Layout.Row

/-!
# What composition gives

Composed elements are texts, barcodes and rows, whose texts and codes are texts, and what was passed
through has none of the types that a layout has a meaning for: no reference and no iterator is left
over, at any depth. Every composed element is restored from its map, `every_isComposed_of_compose`.
-/
namespace Receipt

namespace Element

/-- An element as composition gives it. -/
def IsComposed : Element → Prop
  | .text t _ _ _ => ∃ s, t = .text s
  | .barcode code _ _ => ∃ s, code = .text s
  | .row _ _ => True
  | .passthrough payload => ∀ name ∈ Row.types, ¬ payload.HasType name

theorem IsComposed.isRestorable {e : Element} (h : e.IsComposed) : e.IsRestorable := by
  cases e with
  | text t align flex style =>
      obtain ⟨s, rfl⟩ := h
      exact Value.noConfusion
  | barcode code barcodeType flex =>
      obtain ⟨s, rfl⟩ := h
      exact Value.noConfusion
  | row children flex => trivial
  | passthrough payload =>
      intro name hname
      have hsub : ["text", "barcode", "row"] ⊆ Row.types := by decide
      exact h name (hsub hname)

end Element

namespace Compose
open Filter

theorem forall_of_gather {α : Type} {f : α → Outcome} {as : List α} {p : Element → Prop}
    (hf : ∀ a ∈ as, ∀ es, f a = .ok es → ∀ e ∈ es, p e) {es : List Element}
    (h : gather f as = .ok es) : ∀ e ∈ es, p e := by
  induction as generalizing es with
  | nil =>
      cases h
      nofun
  | cons a as ih =>
      rw [gather_cons] at h
      obtain ⟨here, hhere, h⟩ := bind_eq_ok h
      obtain ⟨more, hmore, rfl⟩ := map_eq_ok h
      intro e he
      rcases List.mem_append.1 he with he | he
      · exact hf a List.mem_cons_self here hhere e he
      · exact ih (fun b hb => hf b (List.mem_cons_of_mem _ hb)) hmore e he

namespace Env
variable [Host] {env : Env}

theorem expand_eq_ok {template data v : Value} (h : env.expand template data = .ok v) :
    ∃ s, v = .text s := by
  rw [expand] at h
  split at h
  · next s _ =>
    cases h
    exact ⟨s, rfl⟩
  · cases h

/-- Every section of the registry has rows that were read. -/
def Declares (registry : Registry) : Prop :=
  ∀ name layout, registry.get? name = some layout → ∀ r ∈ layout.rows, r.Every Row.IsRead

theorem isComposed_of_rowWith (hregistry : Declares env.registry)
    {inside : List String → Nat → Value → List Row → Outcome}
    (hinside : ∀ chain level data rows es, (∀ r ∈ rows, r.Every Row.IsRead) →
      inside chain level data rows = .ok es → ∀ e ∈ es, e.Every Element.IsComposed)
    {chain : List String} {level : Nat} {data : Value} {row : Row} (hrow : row.Every Row.IsRead)
    {es : List Element} (h : env.rowWith inside chain level data row = .ok es) :
    ∀ e ∈ es, e.Every Element.IsComposed := by
  cases hrow with
  | intro hread hinner =>
    cases row with
    | text template align flex style =>
        rw [rowWith_text] at h
        obtain ⟨text, htext, rfl⟩ := map_eq_ok h
        intro e he
        rw [List.mem_singleton.1 he]
        exact .intro (expand_eq_ok htext) (List.forall_mem_nil _)
    | barcode template barcodeType =>
        rw [rowWith_barcode] at h
        obtain ⟨code, hcode, rfl⟩ := map_eq_ok h
        intro e he
        rw [List.mem_singleton.1 he]
        exact .intro (expand_eq_ok hcode) (List.forall_mem_nil _)
    | group children =>
        rw [rowWith_group] at h
        obtain ⟨inner, hes, rfl⟩ := map_eq_ok h
        intro e he
        rw [List.mem_singleton.1 he]
        exact .intro trivial (hinside _ _ _ _ _ hinner hes)
    | iterator path rows =>
        rw [rowWith] at h
        split at h
        · exact forall_of_gather (fun item _ _ hitem => hinside _ _ _ _ _ hinner hitem) h
        · cases h
          exact List.forall_mem_nil _
    | sectionRef ref =>
        rw [rowWith] at h
        split at h
        · cases h
          exact List.forall_mem_nil _
        · next layout found =>
          split at h
          · cases h
          · exact hinside _ _ _ _ _ (hregistry ref layout found) h
    | passthrough payload =>
        cases h
        intro e he
        rw [List.mem_singleton.1 he]
        exact .intro hread (List.forall_mem_nil _)

theorem isComposed_of_within (hregistry : Declares env.registry) {n : Nat} {chain : List String}
    {level : Nat} {data : Value} {rows : List Row} (hrows : ∀ r ∈ rows, r.Every Row.IsRead)
    {es : List Element} (h : env.within n chain level data rows = .ok es) :
    ∀ e ∈ es, e.Every Element.IsComposed := by
  induction n generalizing chain level data rows es with
  | zero => cases h
  | succ n ih =>
      have hinside : ∀ chain level data rows es, (∀ r ∈ rows, r.Every Row.IsRead) →
          env.within n chain level data rows = .ok es → ∀ e ∈ es, e.Every Element.IsComposed :=
        fun _ _ _ _ _ hrows h => ih hrows h
      exact forall_of_gather (fun row hrow _ => isComposed_of_rowWith hregistry hinside
        (hrows row hrow)) (within_eq_ok h).2

theorem isComposed_of_compose (hregistry : Declares env.registry) {layout : Layout}
    (hlayout : ∀ r ∈ layout.rows, r.Every Row.IsRead) {data : Value} {chain : List String}
    {es : List Element} (h : env.compose layout data chain = .ok es) :
    ∀ e ∈ es, e.Every Element.IsComposed := by
  obtain ⟨n, hn⟩ := (eventually_layoutWithin layout data chain).exists
  rw [← hn] at h
  exact isComposed_of_within hregistry hlayout h

/-- Each element that a layout composes to, and each element inside one, is of a kind that
composition gives and is restored from its map. -/
theorem every_isComposed_of_compose {rawLayout rawRegistry : Value} {name : Option String}
    {layout : Layout} {registry : Registry} (hlayout : Layout.ofValue rawLayout name = .ok layout)
    (hregistry : Registry.ofValue rawRegistry = .ok registry) {settings : Settings} {data : Value}
    {chain : List String} {es : List Element}
    (h : Env.compose ⟨settings, registry⟩ layout data chain = .ok es) :
    ∀ e ∈ es, e.Every fun e => e.IsComposed ∧ Element.ofValue e.toValue = .ok e := by
  let env : Env := ⟨settings, registry⟩
  have hdeclares : Declares env.registry := fun _ _ => Registry.every_isRead_of_get? hregistry
  have hcomposed := isComposed_of_compose hdeclares (Layout.every_isRead_of_ofValue hlayout) h
  exact fun e he => (hcomposed e he).restored fun _ => Element.IsComposed.isRestorable

/-- A layout of a reference and a group, as a map. -/
def referringLayout : Value :=
  .list [.map [(.text "type", .text "sectionref"), (.text "ref", .text "Lines")],
    .map [(.text "type", .text "row"), (.text "children", .list
      [.map [(.text "type", .text "barcode"), (.text "code", .int 7)],
        .map [(.text "type", .text "picture"), (.text "url", .null)]])]]

/-- A section that repeats a text, which is null, for every item. -/
def linesRegistry : Value :=
  .map [(.text "Lines", .map [(.text "rows", .list
    [.map [(.text "type", .text "iterator"), (.text "path", .text "items"), (.text "rows", .list
      [.map [(.text "type", .text "text"), (.text "text", .null), (.text "flex", .int 2)]])]])])]

omit [Host] in
theorem every_isComposed_of_compose_lines :
    letI := Host.standard 2025
    let printed : List Element := [.text (.text "") .null (.int 2) .null,
      .row [.barcode (.text "7") .null .null,
        .passthrough [(.text "type", .text "picture"), (.text "url", .null)]] .null]
    ∃ layout registry, Layout.ofValue referringLayout none = .ok layout ∧
      Registry.ofValue linesRegistry = .ok registry ∧
      Env.compose ⟨.standard, registry⟩ layout (.map [(.text "items", .list [.null])]) [] =
        .ok printed ∧
      ∀ e ∈ printed, e.Every fun e => e.IsComposed ∧ Element.ofValue e.toValue = .ok e := by
  let host := Host.standard 2025
  intro printed
  obtain ⟨layout, hlayout⟩ : ∃ layout, Layout.ofValue referringLayout none = .ok layout :=
    ⟨_, rfl⟩
  obtain ⟨registry, hregistry⟩ : ∃ registry, Registry.ofValue linesRegistry = .ok registry :=
    ⟨_, rfl⟩
  have hwithin : Env.layoutWithin ⟨.standard, registry⟩ 5 layout
      (.map [(.text "items", .list [.null])]) [] = .ok printed := by
    cases hlayout
    cases hregistry
    cbv
  have hcompose := compose_eq_of_layoutWithin hwithin (.ok printed)
  exact ⟨layout, registry, hlayout, hregistry, hcompose,
    every_isComposed_of_compose hlayout hregistry hcompose⟩

end Env
end Compose
end Receipt
