import Receipt.Host.Standard
import Receipt.Proofs.Compose.Reachable

/-!
# Sections in a ring

In a ring every section holds one reference, to the next one, among rows that are kept whole and
groups of them. Both guards are on the way of its composition: references count the sections, and
the limit counts the levels that are entered until the ring closes, which groups add to. Which of
them comes first is a matter of the levels alone: `buildFrom_ring`.

The section that is built stands first among the sections around the rows unless its name is empty.
Then it is there only when it is referred to, and the ring is found to be one a section later.
-/
namespace Receipt
open Filter

/-- Rows that are kept whole and groups of such rows. They enter so many levels below their own. -/
inductive Row.Plain : List Row → Nat → Prop
  | nil : Plain [] 0
  | passthrough (payload : Members) {rows : List Row} {entered : Nat} (h : Plain rows entered) :
      Plain (.passthrough payload :: rows) entered
  | group {children rows : List Row} {inner entered : Nat} (hchildren : Plain children inner)
      (h : Plain rows entered) : Plain (.group children :: rows) (max (inner + 1) entered)

/-- Rows that are plain but for one reference among them or in their groups. So many levels below
their own are entered before the reference is met, and so many levels below them it lies. -/
inductive Row.RefersOnce (ref : String) : List Row → Nat → Nat → Prop
  | here {rows : List Row} {inner : Nat} (h : Plain rows inner) :
      RefersOnce ref (.sectionRef ref :: rows) 0 0
  | inGroup {children rows : List Row} {entered below inner : Nat}
      (hchildren : RefersOnce ref children entered below) (h : Plain rows inner) :
      RefersOnce ref (.group children :: rows) (entered + 1) (below + 1)
  | behindPassthrough (payload : Members) {rows : List Row} {entered below : Nat}
      (h : RefersOnce ref rows entered below) :
      RefersOnce ref (.passthrough payload :: rows) entered below
  | behindGroup {children rows : List Row} {inner entered below : Nat}
      (hchildren : Plain children inner) (h : RefersOnce ref rows entered below) :
      RefersOnce ref (.group children :: rows) (max (inner + 1) entered) below

/-- A section that refers once, with the levels that are entered before its reference and the level
that this lies on. -/
structure Stage where
  name : String
  entered : Nat
  below : Nat

namespace Stage

/-- The section that the reference of the first of some sections leads to. -/
def next (stages : List Stage) (last : String) : String := (stages.map name).headD last

/-- The deepest level that is entered from the first section to the reference of the last one, where
the first section lies on a given level. -/
def deepest : Nat → List Stage → Nat
  | _, [] => 0
  | level, stage :: stages =>
    max (level + stage.entered) (deepest (level + stage.below + 1) stages)

/-- The sections of a ring up to the reference that is refused. An empty name is not among the
sections around its rows until it is referred to. -/
def route (first : Stage) (rest : List Stage) : List Stage :=
  if first.name = "" then first :: (rest ++ [first]) else first :: rest

/-- The names in which the ring is reported. -/
def reported (first : Stage) (rest : List Stage) : List String :=
  if first.name = "" then rest.map name ++ [first.name, next rest first.name]
  else first.name :: rest.map name ++ [first.name]

end Stage

namespace Registry

/-- Sections of which each refers once, to the next, and the last to a name. -/
def IsPath (registry : Registry) : List Stage → String → Prop
  | [], _ => True
  | stage :: stages, last =>
    (∃ layout, registry.get? stage.name = some layout ∧
      Row.RefersOnce (Stage.next stages last) layout.rows stage.entered stage.below) ∧
    IsPath registry stages last

/-- Different sections of which each refers once, to the next, and the last to the first. -/
structure IsRing (registry : Registry) (first : Stage) (rest : List Stage) : Prop where
  distinct : ((first :: rest).map Stage.name).Nodup
  refers : registry.IsPath (first :: rest) first.name

end Registry

namespace Registry
variable {registry : Registry}

theorem IsPath.append_singleton {stages : List Stage} {stage : Stage} {last : String}
    (h : registry.IsPath stages stage.name) (hstage : registry.IsPath [stage] last) :
    registry.IsPath (stages ++ [stage]) last := by
  induction stages with
  | nil => exact hstage
  | cons first rest ih =>
      obtain ⟨hfirst, hrest⟩ := h
      refine ⟨?_, ih hrest⟩
      cases rest <;> exact hfirst

namespace IsRing
variable {first : Stage} {rest : List Stage}

/-- Walking a ring once more to its first section. -/
theorem again (h : registry.IsRing first rest) :
    registry.IsPath (first :: (rest ++ [first])) (Stage.next rest first.name) :=
  IsPath.append_singleton h.refers ⟨h.refers.1, trivial⟩

theorem declared_next (h : registry.IsRing first rest) :
    registry.get? (Stage.next rest first.name) ≠ none := by
  obtain ⟨⟨layout, found, -⟩, hrest⟩ := h.refers
  cases rest with
  | nil =>
      show registry.get? first.name ≠ none
      simp [found]
  | cons following rest =>
      obtain ⟨⟨layout', found', -⟩, -⟩ := hrest
      show registry.get? following.name ≠ none
      simp [found']

theorem next_mem (first : Stage) (rest : List Stage) :
    Stage.next rest first.name ∈ (rest ++ [first]).map Stage.name := by
  cases rest <;> simp [Stage.next]

theorem distinct_again (h : registry.IsRing first rest) :
    ((rest ++ [first]).map Stage.name).Nodup :=
  ((List.perm_append_singleton first rest).map _).nodup_iff.2 h.distinct

end IsRing
end Registry

namespace Compose.Env
variable [Host] {env : Env}

omit [Host] in
/-- The deeper of two levels passes if both do, and the upper one is looked at first. -/
theorem checkLevel_max (a b : Nat) :
    env.checkLevel (max a b) = (env.checkLevel a).bind fun _ => env.checkLevel b := by
  unfold checkLevel
  cases env.settings.limit? with
  | none => rfl
  | some bound =>
      simp only [lt_max_iff]
      by_cases ha : bound.1 < a
      · simp only [ha, true_or, if_true]
        rfl
      · simp only [ha, false_or, if_false]
        rfl

omit [Host] in
theorem checkLevel_add (level more : Nat) :
    env.checkLevel (level + more) =
      (env.checkLevel level).bind fun _ => env.checkLevel (level + more) := by
  rw [← checkLevel_max, max_eq_right (Nat.le_add_right level more)]

/-- Composing rows checks their own level, and then what the rows check. -/
theorem eventually_within_of_gather {chain : List String} {level entered : Nat} {data : Value}
    {rows : List Row} {f : Unit → Outcome}
    (h : env.checkLevel level = .ok () → ∀ᶠ n in atTop,
      gather (env.rowWith (env.within n) chain level data) rows =
        (env.checkLevel (level + entered)).bind f) :
    ∀ᶠ n in atTop, env.within n chain level data rows =
      (env.checkLevel (level + entered)).bind f := by
  refine eventually_within ?_
  rw [checkLevel_add level entered]
  cases hlevel : env.checkLevel level with
  | error e => exact .of_forall fun n => rfl
  | ok _ => exact h hlevel

theorem eventually_group {chain : List String} {level entered : Nat} {data : Value}
    {children : List Row} {f : Unit → Outcome}
    (h : env.checkLevel (level + 1) = .ok () → ∀ᶠ n in atTop,
      gather (env.rowWith (env.within n) chain (level + 1) data) children =
        (env.checkLevel (level + 1 + entered)).bind f) :
    ∀ᶠ n in atTop, env.rowWith (env.within n) chain level data (.group children) =
      (env.checkLevel (level + (entered + 1))).bind fun _ =>
        (f ()).map fun es => [.row es .null] := by
  filter_upwards [eventually_within_of_gather h] with n hn
  rw [rowWith_group, hn, Nat.add_right_comm, Nat.add_assoc]
  cases env.checkLevel (level + (entered + 1)) <;> rfl

omit [Host] in
/-- What comes of a row that does not fail but for its levels, and of the rows behind it. -/
theorem gather_checked {f : Row → Outcome} {row : Row} {rows : List Row} {level a b : Nat}
    {es : List Element} {g : Unit → Outcome}
    (hrow : f row = (env.checkLevel (level + a)).bind fun _ => .ok es)
    (hrows : gather f rows = (env.checkLevel (level + b)).bind g) :
    gather f (row :: rows) =
      (env.checkLevel (level + max a b)).bind fun _ => (g ()).map (es ++ ·) := by
  rw [gather_cons, hrow, hrows, ← Nat.add_max_add_left, checkLevel_max]
  cases env.checkLevel (level + a) with
  | error e => rfl
  | ok _ => cases env.checkLevel (level + b) <;> rfl

/-- Plain rows only check the levels that they enter. -/
theorem eventually_plain (env : Env) {rows : List Row} {entered : Nat}
    (h : Row.Plain rows entered) (chain : List String) (data : Value) :
    ∃ es, ∀ level, env.checkLevel level = .ok () → ∀ᶠ n in atTop,
      gather (env.rowWith (env.within n) chain level data) rows =
        (env.checkLevel (level + entered)).bind fun _ => .ok es := by
  induction h with
  | nil =>
      refine ⟨[], fun level hlevel => .of_forall fun n => ?_⟩
      rw [Nat.add_zero, hlevel]
      rfl
  | @passthrough payload rows entered h ih =>
      obtain ⟨es, hes⟩ := ih
      refine ⟨.passthrough payload :: es, fun level hlevel => ?_⟩
      filter_upwards [hes level hlevel] with n hn
      rw [gather_cons, hn]
      cases env.checkLevel (level + entered) <;> rfl
  | @group children rows inner entered hchildren h ihchildren ih =>
      obtain ⟨inside, hinside⟩ := ihchildren
      obtain ⟨es, hes⟩ := ih
      refine ⟨.row inside .null :: es, fun level hlevel => ?_⟩
      filter_upwards [eventually_group (hinside (level + 1)), hes level hlevel] with n hgroup hn
      exact gather_checked hgroup hn

/-- Rows with one reference fail as it does, unless a level that they enter before is refused. -/
theorem eventually_refersOnce {ref : String} {rows : List Row} {entered below : Nat}
    (h : Row.RefersOnce ref rows entered below) {chain : List String} {level : Nat} {data : Value}
    {e : Error} (href : ∀ᶠ n in atTop,
      env.rowWith (env.within n) chain (level + below) data (.sectionRef ref) = .error e)
    (hlevel : env.checkLevel level = .ok ()) :
    ∀ᶠ n in atTop, gather (env.rowWith (env.within n) chain level data) rows =
      (env.checkLevel (level + entered)).bind fun _ => .error e := by
  induction h generalizing level with
  | here h =>
      filter_upwards [href] with n hn
      rw [Nat.add_zero] at hn ⊢
      rw [gather_cons, hn, hlevel]
      rfl
  | @inGroup children rows entered below inner hchildren h ih =>
      rw [← Nat.add_assoc, Nat.add_right_comm] at href
      filter_upwards [eventually_group (ih href)] with n hn
      rw [gather_cons, hn]
      cases env.checkLevel (level + (entered + 1)) <;> rfl
  | @behindPassthrough payload rows entered below h ih =>
      filter_upwards [ih href hlevel] with n hn
      rw [gather_cons, hn]
      cases env.checkLevel (level + entered) <;> rfl
  | @behindGroup children rows inner entered below hchildren h ih =>
      obtain ⟨inside, hinside⟩ := env.eventually_plain hchildren chain data
      filter_upwards [eventually_group (hinside (level + 1)), ih href hlevel] with n hgroup hn
      exact gather_checked hgroup hn

/-- A section that refers once checks the levels before its reference, and then what the reference
checks. -/
theorem eventually_stage {ref : String} {rows : List Row} {entered below : Nat}
    (h : Row.RefersOnce ref rows entered below) {chain : List String} {level behind : Nat}
    {data : Value} {e : Error} (href : ∀ᶠ n in atTop,
      env.rowWith (env.within n) chain (level + below) data (.sectionRef ref) =
        (env.checkLevel behind).bind fun _ => .error e) :
    ∀ᶠ n in atTop, env.within n chain level data rows =
      (env.checkLevel (max (level + entered) behind)).bind fun _ => .error e := by
  have hfails : ∃ e', ((env.checkLevel behind).bind fun _ => (.error e : Outcome)) = .error e' := by
    cases env.checkLevel behind with
    | error e' => exact ⟨e', rfl⟩
    | ok _ => exact ⟨e, rfl⟩
  obtain ⟨e', he'⟩ := hfails
  rw [he'] at href
  filter_upwards [eventually_within_of_gather (eventually_refersOnce h href)] with n hn
  rw [hn, checkLevel_max, ← he']
  cases env.checkLevel (level + entered) <;> rfl

/-- Sections in a row, of which the last refers back to one of those around it, end in the report of
this circle, unless a level on the way is refused. -/
theorem eventually_path (hguarded : env.settings.guarded = true) {rest : List Stage} {last : String}
    (declared : env.registry.get? last ≠ none) {stage : Stage} {layout : Layout}
    (found : env.registry.get? stage.name = some layout) (chain : List String)
    (hpath : env.registry.IsPath (stage :: rest) last)
    (hdistinct : (chain ++ rest.map Stage.name).Nodup)
    (hclosed : last ∈ chain ++ rest.map Stage.name) (level : Nat) (data : Value) :
    ∀ᶠ n in atTop, env.within n chain level data layout.rows =
      (env.checkLevel (Stage.deepest level (stage :: rest))).bind fun _ =>
        .error (.cyclic (chain ++ rest.map Stage.name ++ [last])) := by
  induction rest generalizing stage layout chain level with
  | nil =>
      obtain ⟨⟨layout', found', hrefers⟩, -⟩ := hpath
      cases found.symm.trans found'
      rw [List.map_nil, List.append_nil] at hclosed ⊢
      obtain ⟨target, htarget⟩ := Option.ne_none_iff_exists'.1 declared
      refine eventually_stage hrefers (.of_forall fun n => ?_)
      simp only [rowWith, Stage.next, List.map_nil, List.headD_nil, htarget,
        if_pos (And.intro hguarded hclosed), Stage.deepest, checkLevel_zero]
      rfl
  | cons following rest ih =>
      obtain ⟨⟨layout', found', hrefers⟩, hfollowing⟩ := hpath
      cases found.symm.trans found'
      obtain ⟨target, htarget, -⟩ := hfollowing.1
      have hnames : chain ++ (following :: rest).map Stage.name =
          (chain ++ [following.name]) ++ rest.map Stage.name := by
        rw [List.map_cons, List.append_cons]
      rw [hnames] at hdistinct hclosed ⊢
      have hfresh : ¬ (env.settings.guarded ∧ following.name ∈ chain) := by
        rintro ⟨-, hmem⟩
        have hnodup := (List.nodup_append.1 hdistinct).1
        exact (List.nodup_append.1 hnodup).2.2 _ hmem _ List.mem_cons_self rfl
      refine eventually_stage hrefers ?_
      filter_upwards [ih htarget _ hfollowing hdistinct hclosed (level + stage.below + 1)] with n hn
      rw [Stage.next, List.map_cons, List.headD_cons, rowWith_section htarget hfresh, hn]

/-- A ring is reported from its first section if this has a name, and from the next one if the name
is empty. -/
theorem eventually_ring (hguarded : env.settings.guarded = true) {first : Stage}
    {rest : List Stage} (hring : env.registry.IsRing first rest) {layout : Layout}
    (found : env.registry.get? first.name = some layout)
    (hnamed : layout.name = some first.name) (data : Value) :
    ∀ᶠ n in atTop, env.layoutWithin n layout data [] =
      (env.checkLevel (Stage.deepest 0 (Stage.route first rest))).bind fun _ =>
        .error (.cyclic (Stage.reported first rest)) := by
  by_cases hname : first.name = ""
  · have hstart : startChain layout [] = [] := by simp [startChain, hnamed, hname]
    have hpath := eventually_path hguarded hring.declared_next found [] hring.again
      hring.distinct_again (Registry.IsRing.next_mem first rest) 0 data
    simp only [layoutWithin, hstart, Stage.route, Stage.reported, if_pos hname]
    simpa using hpath
  · have hdeclared : env.registry.get? first.name ≠ none := by simp [found]
    have hpath := eventually_path hguarded hdeclared found [first.name] hring.refers hring.distinct
      List.mem_cons_self 0 data
    simp only [layoutWithin, startChain_nil hnamed hname, Stage.route, Stage.reported,
      if_neg hname]
    exact hpath

theorem compose_ring (hguarded : env.settings.guarded = true) {first : Stage}
    {rest : List Stage} (hring : env.registry.IsRing first rest) {layout : Layout}
    (found : env.registry.get? first.name = some layout)
    (hnamed : layout.name = some first.name) (data : Value) :
    env.compose layout data [] =
      (env.checkLevel (Stage.deepest 0 (Stage.route first rest))).bind fun _ =>
        .error (.cyclic (Stage.reported first rest)) := by
  obtain ⟨n, hn, hn'⟩ := ((eventually_ring hguarded hring found hnamed data).and
    (env.eventually_layoutWithin layout data [])).exists
  rw [← hn, ← hn']

end Compose.Env

theorem buildFrom_checked [Host] {settings : Settings} {raw : Value} {registry : Registry}
    {first : Stage} {rest : List Stage} (hread : Registry.ofValue raw = .ok registry)
    (hring : registry.IsRing first rest) (hguarded : settings.guarded = true) (data : Value) :
    buildFrom settings raw first.name data =
      ((Compose.Env.checkLevel ⟨settings, registry⟩
        (Stage.deepest 0 (Stage.route first rest))).mapError .composition).bind fun _ =>
          .error (.composition (.cyclic (Stage.reported first rest))) := by
  obtain ⟨layout, found, -⟩ := hring.refers.1
  have hnamed := Registry.name_of_get?_ofValue hread found
  have hbuild : buildFrom settings raw first.name data =
      ((Compose.Env.compose ⟨settings, registry⟩ layout data []).map fun es => ⟨es, []⟩).mapError
        .composition := by
    rw [← build_eq_of_get? found rfl, buildFrom, hread]
  rw [hbuild, Compose.Env.compose_ring hguarded hring found hnamed data]
  cases Compose.Env.checkLevel ⟨settings, registry⟩ (Stage.deepest 0 (Stage.route first rest)) <;>
    rfl

/-- Building the first section of a ring reports the ring if the limit reaches the deepest level that
is entered before it closes, and otherwise the limit. -/
theorem buildFrom_ring [Host] {settings : Settings} {raw : Value} {registry : Registry}
    {first : Stage} {rest : List Stage} (hread : Registry.ofValue raw = .ok registry)
    (hring : registry.IsRing first rest) (hguarded : settings.guarded = true) (data : Value) :
    ((∀ reached limit, settings.limit? = some (reached, limit) →
        Stage.deepest 0 (Stage.route first rest) ≤ reached) →
      buildFrom settings raw first.name data =
        .error (.composition (.cyclic (Stage.reported first rest)))) ∧
    ∀ reached limit, settings.limit? = some (reached, limit) →
      reached < Stage.deepest 0 (Stage.route first rest) →
      buildFrom settings raw first.name data = .error (.composition (.tooDeep limit)) := by
  rw [buildFrom_checked hread hring hguarded data]
  constructor
  · intro hreached
    have hpassed : Compose.Env.checkLevel ⟨settings, registry⟩
        (Stage.deepest 0 (Stage.route first rest)) = .ok () := by
      cases hlimit : settings.limit? with
      | none => exact Compose.Env.checkLevel_of_unlimited hlimit _
      | some bound =>
          have hle := hreached bound.1 bound.2 hlimit
          simp only [Compose.Env.checkLevel, hlimit]
          exact if_neg (by omega)
    rw [hpassed]
    rfl
  · intro reached limit hlimit hlt
    simp only [Compose.Env.checkLevel, hlimit, if_pos hlt]
    rfl

/-- Three sections in a ring, one of which refers to the next from a group. -/
def ringSections : Value :=
  .map [(.text "A", .list [referenceTo "B"]),
    (.text "B", .map [(.text "rows", .list [.map [(.text "type", .text "row"),
      (.text "children", .list [referenceTo "C"])]])]),
    (.text "C", .list [.map [(.text "type", .text "pagebreak")], referenceTo "A"])]

def threeInRing : Registry :=
  [(.text "A", ⟨[.sectionRef "B"], some "A"⟩), (.text "B", ⟨[.group [.sectionRef "C"]], some "B"⟩),
    (.text "C", ⟨[.passthrough [(.text "type", .text "pagebreak")], .sectionRef "A"], some "C"⟩)]

theorem ofValue_ringSections : Registry.ofValue ringSections = .ok threeInRing := by
  rfl

theorem threeInRing_isRing :
    threeInRing.IsRing ⟨"A", 0, 0⟩ [⟨"B", 1, 1⟩, ⟨"C", 0, 0⟩] where
  distinct := by decide
  refers := ⟨⟨_, rfl, .here .nil⟩, ⟨_, rfl, .inGroup (.here .nil) .nil⟩,
    ⟨_, rfl, .behindPassthrough _ (.here .nil)⟩, trivial⟩

theorem buildFrom_ring_grouped :
    letI := Host.standard 2025
    let settings (levels : Nat) : Settings :=
      { Settings.standard with maxDepth := some (.count levels) }
    (Registry.ofValue ringSections = .ok threeInRing ∧
      threeInRing.IsRing ⟨"A", 0, 0⟩ [⟨"B", 1, 1⟩, ⟨"C", 0, 0⟩] ∧
      ∀ levels, (settings levels).guarded = true) ∧
    buildFrom (settings 3) ringSections "A" .null =
      .error (.composition (.cyclic ["A", "B", "C", "A"])) ∧
    buildFrom (settings 2) ringSections "A" .null = .error (.composition (.tooDeep (.count 2))) := by
  let host := Host.standard 2025
  intro settings
  have hguarded : ∀ levels, (settings levels).guarded = true := fun _ => rfl
  have hreached : ∀ reached limit, (settings 3).limit? = some (reached, limit) →
      Stage.deepest 0 (Stage.route ⟨"A", 0, 0⟩ [⟨"B", 1, 1⟩, ⟨"C", 0, 0⟩]) ≤ reached := by
    rintro reached limit ⟨⟩
    decide
  exact ⟨⟨ofValue_ringSections, threeInRing_isRing, hguarded⟩,
    (buildFrom_ring ofValue_ringSections threeInRing_isRing (hguarded 3) .null).1 hreached,
    (buildFrom_ring ofValue_ringSections threeInRing_isRing (hguarded 2) .null).2 2 (.count 2) rfl
      (by decide)⟩

/-- Two sections in a ring, the first with an empty name. -/
def namelessRing : Value :=
  .map [(.text "", .list [referenceTo "B"]), (.text "B", .list [referenceTo ""])]

/-- A ring that is guarded against is reported as too deep where the limit is reached before it
closes. A ring whose first section has an empty name is reported from the second one. -/
theorem exists_buildFrom_ring_ne :
    letI := Host.standard 2025
    (∃ registry, Registry.ofValue ringSections = .ok registry ∧
      registry.IsRing ⟨"A", 0, 0⟩ [⟨"B", 1, 1⟩, ⟨"C", 0, 0⟩] ∧
      buildFrom { Settings.standard with maxDepth := some (.count 2) } ringSections "A" (.map []) =
        .error (.composition (.tooDeep (.count 2)))) ∧
    ∃ registry, Registry.ofValue namelessRing = .ok registry ∧
      registry.IsRing ⟨"", 0, 0⟩ [⟨"B", 0, 0⟩] ∧
      buildFrom .standard namelessRing "" (.map []) =
        .error (.composition (.cyclic ["B", "", "B"])) := by
  let host := Host.standard 2025
  have hread : Registry.ofValue namelessRing = .ok
      [(.text "", ⟨[.sectionRef "B"], some ""⟩), (.text "B", ⟨[.sectionRef ""], some "B"⟩)] := by
    rfl
  have hring : Registry.IsRing
      [(.text "", ⟨[.sectionRef "B"], some ""⟩), (.text "B", ⟨[.sectionRef ""], some "B"⟩)]
      ⟨"", 0, 0⟩ [⟨"B", 0, 0⟩] :=
    ⟨by decide, ⟨_, rfl, .here .nil⟩, ⟨_, rfl, .here .nil⟩, trivial⟩
  exact ⟨⟨_, ofValue_ringSections, threeInRing_isRing,
      buildFrom_checked ofValue_ringSections threeInRing_isRing rfl (.map [])⟩,
    ⟨_, hread, hring, buildFrom_checked hread hring rfl (.map [])⟩⟩

end Receipt
