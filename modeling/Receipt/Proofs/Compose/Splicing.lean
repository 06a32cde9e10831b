import Receipt.Host.Standard
import Receipt.Proofs.Compose.Inline

/-!
# Composition in order

What rows give stands in the order of the rows, and the first failure is what comes of them:
`Joins`. So it is with rows that are put behind one another, with the items of an iterator and with
the rows inside a group, at every place: `composeAt_joins`.

`Spliced` says the same of all depths at once. An iterator or a reference is replaced, where it
stands, by the rows that it stands for, and each other row gives one element.
-/
namespace Receipt.Compose

/-- What comes of outcomes in a row: all their elements in order, or the first error. -/
inductive Joins : List Outcome → Outcome → Prop
  | elements (ess : List (List Element)) : Joins (ess.map .ok) (.ok ess.flatten)
  | firstError (ess : List (List Element)) (e : Error) (rest : List Outcome) :
      Joins (ess.map .ok ++ .error e :: rest) (.error e)

namespace Joins

theorem nil : Joins [] (.ok []) := .elements []

theorem error (e : Error) (rest : List Outcome) : Joins (.error e :: rest) (.error e) :=
  .firstError [] e rest

theorem cons {parts : List Outcome} {r : Outcome} (h : Joins parts r) (here : List Element) :
    Joins (.ok here :: parts) (r.map (here ++ ·)) := by
  cases h with
  | elements ess => exact .elements (here :: ess)
  | firstError ess e rest => exact .firstError (here :: ess) e rest

end Joins

theorem joins_gather {α : Type} (f : α → Outcome) (as : List α) :
    Joins (as.map f) (gather f as) := by
  induction as with
  | nil => exact .nil
  | cons a as ih =>
      rw [List.map_cons, gather_cons]
      cases f a with
      | error e => exact .error e _
      | ok here => exact ih.cons here

theorem gather_map {α β : Type} (f : β → Outcome) (g : α → β) (as : List α) :
    gather f (as.map g) = gather (fun a => f (g a)) as := by
  induction as with
  | nil => rfl
  | cons a as ih => rw [List.map_cons, gather_cons, gather_cons, ih]

theorem gather_flatMap {α β : Type} (f : β → Outcome) (g : α → List β) (as : List α) :
    gather f (as.flatMap g) = gather (fun a => gather f (g a)) as := by
  induction as with
  | nil => rfl
  | cons a as ih => rw [List.flatMap_cons, gather_append, gather_cons, ih]

namespace Env
variable [Host] {env : Env}

/-- Composes rows that lie at a place, unless its level is beyond the limit. -/
def composeAt (env : Env) (p : Place) (data : Value) (rows : List Row) : Outcome :=
  (env.checkLevel p.level).bind fun _ => env.composeRows p data rows

theorem composeAt_eq_ok {p : Place} {data : Value} {rows : List Row} {es : List Element}
    (h : env.composeAt p data rows = .ok es) :
    env.checkLevel p.level = .ok () ∧ env.composeRows p data rows = .ok es := by
  rw [composeAt] at h
  obtain ⟨_, passed, hrows⟩ := bind_eq_ok h
  exact ⟨passed, hrows⟩

theorem compose_eq_composeAt (layout : Layout) (data : Value) (chain : List String) :
    env.compose layout data chain =
      env.composeAt ⟨startChain layout chain, [], 0⟩ data layout.rows := by
  rw [composeAt, checkLevel_zero]
  rfl

theorem composeRows_eq_gather (p : Place) (data : Value) (rows : List Row) :
    env.composeRows p data rows = gather (env.composeRow p data) rows := by
  induction rows with
  | nil => rw [composeRows, gather]
  | cons row rest ih => rw [composeRows_cons, gather_cons, ih]

theorem composeItems_eq_gather (p : Place) (items : List Value) (rows : List Row) :
    env.composeItems p items rows = gather (fun item => env.composeAt p item rows) items := by
  induction items with
  | nil => rw [composeItems, gather]
  | cons item rest ih => rw [composeItems_cons, gather_cons, ih, composeAt]

theorem composeRow_group_eq (p : Place) (data : Value) (children : List Row) :
    env.composeRow p data (.group children) =
      (env.composeAt p.intoGroup data children).map fun es => [.row es .null] := by
  rw [composeRow_group, composeAt]
  show _ = ((env.checkLevel (p.level + 1)).bind _).map _
  cases env.checkLevel (p.level + 1) <;> rfl

/-- Rows behind one another give what they give alone, in order, up to the first failure. -/
theorem joins_append (p : Place) (data : Value) (rows rows' : List Row) :
    Joins [env.composeAt p data rows, env.composeAt p data rows']
      (env.composeAt p data (rows ++ rows')) := by
  have happend : env.composeAt p data (rows ++ rows') =
      gather (fun part => env.composeAt p data part) [rows, rows'] := by
    rw [gather_cons, gather_singleton]
    simp only [composeAt]
    cases env.checkLevel p.level with
    | error e => rfl
    | ok _ =>
        show env.composeRows p data (rows ++ rows') = _
        simp only [composeRows_eq_gather, gather_append]
        rfl
  rw [happend]
  exact joins_gather _ [rows, rows']

/-- A row where it stands, and its data. -/
structure Placed where
  place : Place
  data : Value
  row : Row

/-- Rows that stand at a place, against the same data. -/
def placedAt (p : Place) (data : Value) (rows : List Row) : List Placed :=
  rows.map fun row => ⟨p, data, row⟩

/-- Rows that stand at a place once for every item. -/
def placedFor (p : Place) (items : List Value) (rows : List Row) : List Placed :=
  items.flatMap fun item => placedAt p item rows

/-- Rows give elements. An iterator and a reference are replaced by the rows that they stand for,
and these are spliced in; a group gives one element around what its children give, and every other
row gives one element. -/
inductive Spliced (env : Env) : List Placed → List Element → Prop
  | nil : Spliced env [] []
  | text {p : Place} {data template align flex style text : Value} {rest : List Placed}
      {es : List Element} (printed : env.expand template data = .ok text)
      (hrest : Spliced env rest es) :
      Spliced env (⟨p, data, .text template align flex style⟩ :: rest)
        (.text text align flex style :: es)
  | barcode {p : Place} {data template barcodeType code : Value} {rest : List Placed}
      {es : List Element} (printed : env.expand template data = .ok code)
      (hrest : Spliced env rest es) :
      Spliced env (⟨p, data, .barcode template barcodeType⟩ :: rest)
        (.barcode code barcodeType .null :: es)
  | passthrough {p : Place} {data : Value} {payload : Members} {rest : List Placed}
      {es : List Element} (hrest : Spliced env rest es) :
      Spliced env (⟨p, data, .passthrough payload⟩ :: rest) (.passthrough payload :: es)
  | group {p : Place} {data : Value} {children : List Row} {inner : List Element}
      {rest : List Placed} {es : List Element}
      (passed : env.checkLevel p.intoGroup.level = .ok ())
      (hinner : Spliced env (placedAt p.intoGroup data children) inner)
      (hrest : Spliced env rest es) :
      Spliced env (⟨p, data, .group children⟩ :: rest) (.row inner .null :: es)
  | iterator {p : Place} {data : Value} {path : String} {rows : List Row} {items : List Value}
      {rest : List Placed} {es : List Element} (found : Template.resolve data path = .list items)
      (passed : items ≠ [] → env.checkLevel p.intoItems.level = .ok ())
      (h : Spliced env (placedFor p.intoItems items rows ++ rest) es) :
      Spliced env (⟨p, data, .iterator path rows⟩ :: rest) es
  | noItems {p : Place} {data : Value} {path : String} {rows : List Row} {rest : List Placed}
      {es : List Element} (missing : ∀ items, Template.resolve data path ≠ .list items)
      (hrest : Spliced env rest es) :
      Spliced env (⟨p, data, .iterator path rows⟩ :: rest) es
  | reference {p : Place} {data : Value} {ref : String} {layout : Layout} {rest : List Placed}
      {es : List Element} (entered : env.enter p ref = .ok (some layout))
      (h : Spliced env (placedAt (p.intoSection ref) data layout.rows ++ rest) es) :
      Spliced env (⟨p, data, .sectionRef ref⟩ :: rest) es
  | undeclared {p : Place} {data : Value} {ref : String} {rest : List Placed} {es : List Element}
      (missing : env.enter p ref = .ok none) (hrest : Spliced env rest es) :
      Spliced env (⟨p, data, .sectionRef ref⟩ :: rest) es

def composePlaced (env : Env) (t : Placed) : Outcome := env.composeRow t.place t.data t.row

theorem gather_placedAt (p : Place) (data : Value) (rows : List Row) :
    gather env.composePlaced (placedAt p data rows) = env.composeRows p data rows := by
  rw [placedAt, gather_map, composeRows_eq_gather]
  rfl

theorem gather_placedFor {p : Place} {items : List Value}
    (passed : items ≠ [] → env.checkLevel p.level = .ok ()) (rows : List Row) :
    gather env.composePlaced (placedFor p items rows) = env.composeItems p items rows := by
  rw [placedFor, gather_flatMap, composeItems_eq_gather]
  refine gather_congr fun item hitem => ?_
  rw [gather_placedAt, composeAt, passed (List.ne_nil_of_mem hitem)]
  rfl

theorem gather_splice_rows {row : Placed} (rows : List Placed) {rest : List Placed}
    (h : env.composePlaced row = gather env.composePlaced rows) :
    gather env.composePlaced (row :: rest) = gather env.composePlaced (rows ++ rest) := by
  rw [gather_cons, gather_append, h]

theorem gather_of_spliced {tasks : List Placed} {es : List Element} (h : Spliced env tasks es) :
    gather env.composePlaced tasks = .ok es := by
  induction h with
  | nil => rfl
  | text printed hrest ih | barcode printed hrest ih =>
      rw [gather_cons, ih, composePlaced, composeRow, printed]
      rfl
  | passthrough hrest ih =>
      rw [gather_cons, ih, composePlaced, composeRow]
      rfl
  | group passed hinner hrest ihinner ih =>
      rw [gather_placedAt] at ihinner
      rw [gather_cons, ih, composePlaced, composeRow_group_eq, composeAt, passed]
      show ((env.composeRows _ _ _).map _).bind _ = _
      rw [ihinner]
      rfl
  | iterator found passed h ih =>
      rw [← ih]
      apply gather_splice_rows
      rw [gather_placedFor passed, composePlaced, composeRow_iterator _ found]
  | noItems missing hrest ih =>
      rw [← ih]
      apply gather_splice_rows []
      rw [composePlaced, composeRow_iterator_of_no_list _ missing, gather]
  | @reference p data ref layout rest es entered h ih =>
      rw [← ih]
      apply gather_splice_rows
      rw [gather_placedAt, composePlaced, composeRow_section, entered]
      rfl
  | undeclared missing hrest ih =>
      rw [← ih]
      apply gather_splice_rows []
      rw [composePlaced, composeRow_section, missing]
      rfl

section splicing

/-- What a row gives is spliced in before what the rest gives. -/
def RowSpliced (env : Env) (p : Place) (data : Value) (row : Row) : Prop :=
  ∀ here, env.composeRow p data row = .ok here → ∀ rest es, Spliced env rest es →
    Spliced env (⟨p, data, row⟩ :: rest) (here ++ es)

def RowsSpliced (env : Env) (p : Place) (data : Value) (rows : List Row) : Prop :=
  ∀ here, env.composeRows p data rows = .ok here → ∀ rest es, Spliced env rest es →
    Spliced env (placedAt p data rows ++ rest) (here ++ es)

def ItemsSpliced (env : Env) (p : Place) (items : List Value) (rows : List Row) : Prop :=
  ∀ here, env.composeItems p items rows = .ok here → ∀ rest es, Spliced env rest es →
    (items ≠ [] → env.checkLevel p.level = .ok ()) ∧
      Spliced env (placedFor p items rows ++ rest) (here ++ es)

variable {p : Place} {data : Value}

theorem rowSpliced_of_one {row : Row}
    (h : ∀ here, env.composeRow p data row = .ok here → ∃ e, here = [e] ∧
      ∀ rest es, Spliced env rest es → Spliced env (⟨p, data, row⟩ :: rest) (e :: es)) :
    RowSpliced env p data row := by
  intro here hhere rest es hrest
  obtain ⟨e, rfl, hspliced⟩ := h here hhere
  exact hspliced rest es hrest

theorem rowSpliced_text (template align flex style : Value) :
    RowSpliced env p data (.text template align flex style) := by
  refine rowSpliced_of_one fun here h => ?_
  rw [composeRow] at h
  obtain ⟨text, printed, h⟩ := bind_eq_ok h
  cases h
  exact ⟨_, rfl, fun _ _ hrest => .text printed hrest⟩

theorem rowSpliced_barcode (template barcodeType : Value) :
    RowSpliced env p data (.barcode template barcodeType) := by
  refine rowSpliced_of_one fun here h => ?_
  rw [composeRow] at h
  obtain ⟨code, printed, h⟩ := bind_eq_ok h
  cases h
  exact ⟨_, rfl, fun _ _ hrest => .barcode printed hrest⟩

theorem rowSpliced_passthrough (payload : Members) :
    RowSpliced env p data (.passthrough payload) := by
  refine rowSpliced_of_one fun here h => ?_
  rw [composeRow] at h
  cases h
  exact ⟨_, rfl, fun _ _ hrest => .passthrough hrest⟩

theorem rowSpliced_group {children : List Row} (ih : RowsSpliced env p.intoGroup data children) :
    RowSpliced env p data (.group children) := by
  refine rowSpliced_of_one fun here h => ?_
  rw [composeRow_group_eq] at h
  obtain ⟨inner, hinner, rfl⟩ := map_eq_ok h
  obtain ⟨passed, hinner⟩ := composeAt_eq_ok hinner
  have hspliced := ih inner hinner [] [] .nil
  rw [List.append_nil, List.append_nil] at hspliced
  exact ⟨_, rfl, fun _ _ hrest => .group passed hspliced hrest⟩

theorem rowSpliced_iterator {path : String} {rows : List Row} {items : List Value}
    (found : Template.resolve data path = .list items)
    (ih : ItemsSpliced env p.intoItems items rows) :
    RowSpliced env p data (.iterator path rows) := by
  intro here h rest es hrest
  rw [composeRow_iterator rows found] at h
  obtain ⟨passed, hspliced⟩ := ih here h rest es hrest
  exact .iterator found passed hspliced

theorem rowSpliced_noItems {path : String} {rows : List Row}
    (missing : ∀ items, Template.resolve data path ≠ .list items) :
    RowSpliced env p data (.iterator path rows) := by
  intro here h rest es hrest
  rw [composeRow_iterator_of_no_list rows missing] at h
  cases h
  exact .noItems missing hrest

theorem rowSpliced_refused {ref : String} {e : Error} (refused : env.enter p ref = .error e) :
    RowSpliced env p data (.sectionRef ref) := by
  intro here h
  rw [composeRow_section, refused] at h
  cases h

theorem rowSpliced_undeclared {ref : String} (missing : env.enter p ref = .ok none) :
    RowSpliced env p data (.sectionRef ref) := by
  intro here h rest es hrest
  rw [composeRow_section, missing] at h
  cases h
  exact .undeclared missing hrest

theorem rowSpliced_reference {ref : String} {layout : Layout}
    (entered : env.enter p ref = .ok (some layout))
    (ih : RowsSpliced env (p.intoSection ref) data layout.rows) :
    RowSpliced env p data (.sectionRef ref) := by
  intro here h rest es hrest
  rw [composeRow_section, entered] at h
  exact .reference entered (ih here h rest es hrest)

theorem rowsSpliced_nil : RowsSpliced env p data [] := by
  intro here h rest es hrest
  rw [composeRows] at h
  cases h
  exact hrest

theorem rowsSpliced_cons {row : Row} {rows : List Row} (hrow : RowSpliced env p data row)
    (hrows : RowsSpliced env p data rows) : RowsSpliced env p data (row :: rows) := by
  intro both h rest es hrest
  rw [composeRows_cons] at h
  obtain ⟨here, hhere, h⟩ := bind_eq_ok h
  obtain ⟨more, hmore, rfl⟩ := map_eq_ok h
  rw [List.append_assoc]
  exact hrow here hhere _ _ (hrows more hmore rest es hrest)

theorem itemsSpliced_nil (rows : List Row) : ItemsSpliced env p [] rows := by
  intro here h rest es hrest
  rw [composeItems] at h
  cases h
  exact ⟨fun hne => (hne rfl).elim, hrest⟩

theorem itemsSpliced_cons {item : Value} {items : List Value} {rows : List Row}
    (hitem : RowsSpliced env p item rows) (hitems : ItemsSpliced env p items rows) :
    ItemsSpliced env p (item :: items) rows := by
  intro both h rest es hrest
  rw [composeItems_cons] at h
  obtain ⟨here, hhere, h⟩ := bind_eq_ok h
  obtain ⟨more, hmore, rfl⟩ := map_eq_ok h
  obtain ⟨_, passed, hhere⟩ := bind_eq_ok hhere
  obtain ⟨-, hspliced⟩ := hitems more hmore rest es hrest
  refine ⟨fun _ => passed, ?_⟩
  rw [placedFor, List.flatMap_cons, List.append_assoc, List.append_assoc]
  exact hitem here hhere _ _ hspliced

theorem rowsSpliced (env : Env) (p : Place) (data : Value) (rows : List Row) :
    RowsSpliced env p data rows := by
  refine (composeRow.mutual_induct env (RowSpliced env) (ItemsSpliced env) (RowsSpliced env)
    ?_ ?_ ?_ ?_ ?_ ?_ ?_ ?_ ?_ ?_ ?_ ?_ ?_).2.2 p data rows
  · exact fun p data template align flex style => rowSpliced_text template align flex style
  · exact fun p data template barcodeType => rowSpliced_barcode template barcodeType
  · exact fun p data children ih => rowSpliced_group ih
  · exact fun p data path rows items found ih => rowSpliced_iterator found ih
  · exact fun p data path rows missing => rowSpliced_noItems missing
  · exact fun p data ref e refused => rowSpliced_refused refused
  · exact fun p data ref missing => rowSpliced_undeclared missing
  · exact fun p data ref layout entered ih => rowSpliced_reference entered ih
  · exact fun p data payload => rowSpliced_passthrough payload
  · exact fun p rows => itemsSpliced_nil rows
  · exact fun p rows item rest hitem hrest => itemsSpliced_cons hitem hrest
  · exact fun p data => rowsSpliced_nil
  · exact fun p data row rest hrow hrest => rowsSpliced_cons hrow hrest

end splicing

theorem composeRows_eq_ok_iff (p : Place) (data : Value) (rows : List Row) (es : List Element) :
    env.composeRows p data rows = .ok es ↔ Spliced env (placedAt p data rows) es := by
  constructor
  · intro h
    have hspliced := rowsSpliced env p data rows es h [] [] .nil
    rwa [List.append_nil, List.append_nil] at hspliced
  · intro h
    rw [← gather_placedAt]
    exact gather_of_spliced h

/-- Composition splices in order, at every place and so at every depth: rows behind one another, the
rows of an iterator for its items, and the rows of a group in one element. -/
theorem composeAt_joins (env : Env) (data : Value) :
    (∀ layout chain, env.compose layout data chain =
      env.composeAt ⟨startChain layout chain, [], 0⟩ data layout.rows) ∧
    ∀ p : Place,
      (∀ rows rows', Joins [env.composeAt p data rows, env.composeAt p data rows']
        (env.composeAt p data (rows ++ rows'))) ∧
      (∀ path rows items, Template.resolve data path = .list items →
        Joins (items.map fun item => env.composeAt p.intoItems item rows)
          (env.composeRow p data (.iterator path rows))) ∧
      (∀ path rows, (∀ items, Template.resolve data path ≠ .list items) →
        env.composeRow p data (.iterator path rows) = .ok []) ∧
      (∀ children, env.composeRow p data (.group children) =
        (env.composeAt p.intoGroup data children).map fun es => [.row es .null]) ∧
      (∀ rows, Joins (rows.map fun row => env.composeRow p data row)
        (env.composeRows p data rows)) ∧
      ∀ rows es, env.composeRows p data rows = .ok es ↔
        Spliced env (placedAt p data rows) es := by
  refine ⟨fun layout chain => compose_eq_composeAt layout data chain, fun p => ⟨joins_append p data,
    ?_, ?_, composeRow_group_eq p data, ?_, composeRows_eq_ok_iff p data⟩⟩
  · intro path rows items found
    rw [composeRow_iterator rows found, composeItems_eq_gather]
    exact joins_gather _ items
  · exact fun path rows missing => composeRow_iterator_of_no_list rows missing
  · intro rows
    rw [composeRows_eq_gather]
    exact joins_gather _ rows

/-- A line for an item, and one for each of its parts. -/
def partsRows : List Row :=
  [.passthrough [(.text "type", .text "line")],
    .iterator "parts" [.passthrough [(.text "type", .text "part")]]]

omit [Host] in
/-- Of three items only the second one has parts, which lie below the limit. -/
theorem composeAt_joins_parts :
    letI := Host.standard 2025
    let env : Env := ⟨{ Settings.standard with maxDepth := some (.count 1) }, []⟩
    let second : Value := .map [(.text "parts", .list [.int 1])]
    let data : Value := .map [(.text "items", .list [.null, second, .null])]
    let p : Place := ⟨["A"], [], 0⟩
    Template.resolve data "items" = .list [.null, second, .null] ∧
      Joins [.ok [.passthrough [(.text "type", .text "line")]], .error (.tooDeep (.count 1)),
          .ok [.passthrough [(.text "type", .text "line")]]]
        (env.composeRow p data (.iterator "items" partsRows)) ∧
      (∀ items, Template.resolve data "none" ≠ .list items) ∧
      env.composeRow p data (.iterator "none" partsRows) = .ok [] := by
  let host := Host.standard 2025
  intro env second data p
  have hjoins := ((composeAt_joins env data).2 p).2.1 "items" partsRows _ rfl
  have hnone : ∀ items, Template.resolve data "none" ≠ .list items := fun _ => Value.noConfusion
  have hnothing := ((composeAt_joins env data).2 p).2.2.1 "none" partsRows hnone
  have hwithout : env.composeAt p.intoItems .null partsRows =
      .ok [.passthrough [(.text "type", .text "line")]] := by
    have hnone : ∀ items, Template.resolve .null "parts" ≠ .list items := fun _ => Value.noConfusion
    rw [composeAt, composeRows_eq_gather, partsRows, gather_cons, gather_singleton,
      composeRow_iterator_of_no_list _ hnone, composeRow]
    rfl
  have hwith : env.composeAt p.intoItems second partsRows = .error (.tooDeep (.count 1)) := by
    rw [composeAt, composeRows_eq_gather, partsRows, gather_cons, gather_singleton,
      composeRow_iterator _ rfl, composeItems_cons, composeRow]
    rfl
  simp only [List.map_cons, List.map_nil, hwithout, hwith] at hjoins
  exact ⟨rfl, hjoins, hnone, hnothing⟩

end Env
end Receipt.Compose
