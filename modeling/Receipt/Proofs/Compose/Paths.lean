import Receipt.Host.Standard
import Receipt.Proofs.Compose.TwoRuns

/-!
# What composition reads of the data

A row follows the paths of the tokens in its template, or the path to its list. The rows that are
composed against the data of a layout are its own, those in its groups and those of the sections it
refers to, but not those under an iterator, which see an item. Data that agree on the paths which
these rows follow compose alike: `compose_eq_of_paths`.
-/
namespace Receipt

/-- A token with this path stands in a template. -/
def Template.HasPath (template : Value) (path : String) : Prop :=
  ∃ t : Token, Piece.token t ∈ Piece.cut template.printed.toList ∧ path = String.ofList t.path

/-- A row looks up a path in the data that it is composed against. -/
inductive Row.Follows (path : String) : Row → Prop
  | text {template : Value} (align flex style : Value) (h : Template.HasPath template path) :
      Follows path (.text template align flex style)
  | barcode {template : Value} (barcodeType : Value) (h : Template.HasPath template path) :
      Follows path (.barcode template barcodeType)
  | iterator (rows : List Row) : Follows path (.iterator path rows)

/-- A row is composed against the same data as the rows it is reached from, through groups and
references. -/
inductive Registry.Shares (registry : Registry) : List Row → Row → Prop
  | here {rows : List Row} {row : Row} (mem : row ∈ rows) : Shares registry rows row
  | group {rows children : List Row} {row : Row} (mem : .group children ∈ rows)
      (h : Shares registry children row) : Shares registry rows row
  | reference {rows : List Row} {ref : String} {layout : Layout} {row : Row}
      (mem : .sectionRef ref ∈ rows) (found : registry.get? ref = some layout)
      (h : Shares registry layout.rows row) : Shares registry rows row

namespace Template

theorem startValue_congr {data data' : Value} {path : String}
    (h : resolve data' path = resolve data path) :
    startValue data' path = startValue data path := by
  rw [startValue, startValue, h]

namespace Expander
variable [Host]

/-- A piece of a template is filled alike if its path leads to the same value. -/
theorem pieceText_congr (x : Expander) {data data' : Value} {piece : Piece}
    (h : ∀ t, piece = .token t →
      resolve data' (String.ofList t.path) = resolve data (String.ofList t.path)) :
    x.pieceText data' piece = x.pieceText data piece := by
  cases piece with
  | char c => rfl
  | token t => rw [pieceText, pieceText, tokenText, tokenText, startValue_congr (h t rfl)]

theorem piecesText_congr (x : Expander) {data data' : Value} {pieces : List Piece}
    (h : ∀ t, Piece.token t ∈ pieces →
      resolve data' (String.ofList t.path) = resolve data (String.ofList t.path)) :
    x.piecesText data' pieces = x.piecesText data pieces := by
  induction pieces with
  | nil => rfl
  | cons piece pieces ih =>
      have hhead : x.pieceText data' piece = x.pieceText data piece :=
        x.pieceText_congr fun t ht => h t (ht ▸ List.mem_cons_self)
      rw [piecesText, piecesText, hhead, ih fun t ht => h t (List.mem_cons_of_mem _ ht)]

theorem expand_congr (x : Expander) {template data data' : Value}
    (h : ∀ path, HasPath template path → resolve data' path = resolve data path) :
    x.expand template data' = x.expand template data := by
  rw [expand, expand, textOf, Value.print]
  cases template.printFault? with
  | some e => rfl
  | none =>
      have hpieces := x.piecesText_congr fun t ht => h _ ⟨t, ht, rfl⟩
      exact congrArg (Except.map String.ofList) hpieces

end Expander
end Template

namespace Compose

/-- Two data values lead to the same along every path that rows follow in them. -/
def SameAlong (registry : Registry) (data data' : Value) (rows : List Row) : Prop :=
  ∀ row path, registry.Shares rows row → row.Follows path →
    Template.resolve data' path = Template.resolve data path

namespace SameAlong
variable {registry : Registry} {data data' : Value} {rows : List Row}

theorem group (h : SameAlong registry data data' rows) {children : List Row}
    (mem : .group children ∈ rows) : SameAlong registry data data' children :=
  fun row path hrow => h row path (.group mem hrow)

theorem reference (h : SameAlong registry data data' rows) {ref : String} {layout : Layout}
    (mem : .sectionRef ref ∈ rows) (found : registry.get? ref = some layout) :
    SameAlong registry data data' layout.rows :=
  fun row path hrow => h row path (.reference mem found hrow)

end SameAlong

namespace Env
variable [Host] {env : Env}

theorem expand_congr {template data data' : Value}
    (h : ∀ path, Template.HasPath template path →
      Template.resolve data' path = Template.resolve data path) :
    env.expand template data' = env.expand template data := by
  rw [expand, expand, env.settings.expander.expand_congr h]

/-- Data are related at some rows if they are the same, as an item is to itself, or lead to the same
along the paths that the rows follow. -/
def RelatedData (env : Env) (data data' : Value) (rows : List Row) : Prop :=
  data' = data ∨ SameAlong env.registry data data' rows

theorem alike_self (data : Value) (row : Row) :
    Alike env env env.RelatedData data data row := by
  cases row with
  | text => rfl
  | barcode => rfl
  | group children => exact .inl rfl
  | iterator path rows => exact ⟨rfl, fun item => .inl rfl⟩
  | sectionRef ref => exact ⟨rfl, fun layout _ => .inl rfl⟩
  | passthrough => trivial

theorem alike_of_sameAlong {data data' : Value} {rows : List Row}
    (h : SameAlong env.registry data data' rows) {row : Row} (hrow : row ∈ rows) :
    Alike env env env.RelatedData data data' row := by
  cases row with
  | text template align flex style =>
      exact expand_congr fun path hpath => h _ path (.here hrow) (.text align flex style hpath)
  | barcode template barcodeType =>
      exact expand_congr fun path hpath => h _ path (.here hrow) (.barcode barcodeType hpath)
  | group children => exact .inr (h.group hrow)
  | iterator path rows => exact ⟨h _ path (.here hrow) (.iterator rows), fun item => .inl rfl⟩
  | sectionRef ref => exact ⟨rfl, fun layout found => .inr (h.reference hrow found)⟩
  | passthrough => trivial

/-- Data that agree on every path which a layout follows in them give the same elements or the same
error. The rows under an iterator follow no path in them. -/
theorem compose_eq_of_paths (env : Env) {layout : Layout} {data data' : Value}
    (h : ∀ row path, env.registry.Shares layout.rows row → row.Follows path →
      Template.resolve data path = Template.resolve data' path) (chain : List String) :
    env.compose layout data chain = env.compose layout data' chain := by
  have hstep : ∀ data data' rows, env.RelatedData data data' rows →
      ∀ row ∈ rows, Alike env env env.RelatedData data data' row := by
    rintro data data' rows (rfl | hsame) row hrow
    · exact alike_self data' row
    · exact alike_of_sameAlong hsame hrow
  have hrelated : env.RelatedData data data' layout.rows :=
    .inr fun row path hshares hfollows => (h row path hshares hfollows).symm
  exact (compose_alike rfl hstep hrelated chain).symm

/-- A line that prints what stands under `a`. -/
def lineOfA : Row := .text (.text "\x7b\x7ba\x7d\x7d") .null .null .null

/-- The line, here and in a section, and a line for each item. -/
def itemsLayout : Layout :=
  ⟨[lineOfA, .iterator "items" [.text (.text "\x7b\x7bb\x7d\x7d") .null .null .null],
    .sectionRef "T"], some "S"⟩

def itemsEnv : Env := ⟨.standard, [(.text "T", ⟨[.group [lineOfA]], some "T"⟩)]⟩

/-- Data in which `b` stands beside the items as well as in them. -/
def itemsData (b : Value) : Value :=
  .map [(.text "a", .int 1), (.text "items", .list [.map [(.text "b", .int 2)]]), (.text "b", b)]

omit [Host] in
theorem eq_of_lineOfA_follows {path : String} (h : lineOfA.Follows path) : path = "a" := by
  have hcut : Template.Piece.cut "\x7b\x7ba\x7d\x7d".toList = [.token ⟨[], ['a'], [], []⟩] := by
    decide +kernel
  cases h with
  | text _ _ _ h =>
      obtain ⟨t, hmem, rfl⟩ := h
      rw [Value.printed, hcut] at hmem
      cases List.mem_singleton.1 hmem
      rfl

omit [Host] in
theorem itemsLayout_follows {row : Row} {path : String}
    (hshares : itemsEnv.registry.Shares itemsLayout.rows row) (hfollows : row.Follows path) :
    path = "a" ∨ path = "items" := by
  cases hshares with
  | here mem =>
      simp only [itemsLayout, List.mem_cons, List.not_mem_nil, or_false] at mem
      rcases mem with rfl | rfl | rfl
      · exact .inl (eq_of_lineOfA_follows hfollows)
      · cases hfollows
        exact .inr rfl
      · cases hfollows
  | group mem h => simp [itemsLayout, lineOfA] at mem
  | reference mem found h =>
      simp only [itemsLayout, lineOfA, List.mem_cons, reduceCtorEq, Row.sectionRef.injEq,
        List.not_mem_nil, or_false, false_or] at mem
      subst mem
      cases found
      cases h with
      | here mem =>
          cases List.mem_singleton.1 mem
          cases hfollows
      | group mem h =>
          cases List.mem_singleton.1 mem
          cases h with
          | here mem =>
              cases List.mem_singleton.1 mem
              exact .inl (eq_of_lineOfA_follows hfollows)
          | group mem h => simp [lineOfA] at mem
          | reference mem found h => simp [lineOfA] at mem
      | reference mem found h => simp at mem

omit [Host] in
theorem compose_eq_of_paths_items :
    letI := Host.standard 2025
    (∀ row path, itemsEnv.registry.Shares itemsLayout.rows row → row.Follows path →
      Template.resolve (itemsData .null) path = Template.resolve (itemsData (.int 9)) path) ∧
    itemsEnv.compose itemsLayout (itemsData .null) [] =
      itemsEnv.compose itemsLayout (itemsData (.int 9)) [] := by
  let host := Host.standard 2025
  have hsame : ∀ row path, itemsEnv.registry.Shares itemsLayout.rows row → row.Follows path →
      Template.resolve (itemsData .null) path = Template.resolve (itemsData (.int 9)) path := by
    intro row path hshares hfollows
    rcases itemsLayout_follows hshares hfollows with rfl | rfl <;> rfl
  exact ⟨hsame, compose_eq_of_paths itemsEnv hsame []⟩

end Env
end Compose
end Receipt
