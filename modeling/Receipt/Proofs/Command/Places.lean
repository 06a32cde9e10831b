import Receipt.Proofs.Command.OutputNames

/-!
# Where the files of a batch are

A directory that was made can be entered, and making it adds directories only,
`makeDirectory_eq_ok`. So each data file and each output of a batch has a place that its path leads
to: `exists_locate_of_mem_dataFiles`, `exists_locate_output`. Data files are told apart by the texts
of their paths, `text_inj_of_mem_dataFiles`.
-/
namespace Receipt.Command

namespace Disk

variable {d d' made : Disk} {p q there : Path}

/-- At a path there is what was there before, or a directory where there was nothing. -/
def KeptAt (d d' : Disk) (p : Path) : Prop :=
  d'.get? p = d.get? p ∨ d.get? p = none ∧ d'.get? p = some .directory

/-- The disks differ in directories that only the second one has. -/
def AddsDirectories (d d' : Disk) : Prop := ∀ p, KeptAt d d' p

theorem AddsDirectories.refl (d : Disk) : AddsDirectories d d := fun _ => .inl rfl

theorem AddsDirectories.trans {d'' : Disk} (h : AddsDirectories d d')
    (h' : AddsDirectories d' d'') : AddsDirectories d d'' := by
  intro p
  rcases h p with hsame | ⟨hnone, hmade⟩
  · rw [KeptAt, ← hsame]
    exact h' p
  · rcases h' p with hsame' | ⟨hnone', -⟩
    · exact .inr ⟨hnone, hsame'.trans hmade⟩
    · rw [hnone'] at hmade
      cases hmade

theorem AddsDirectories.keepsDirectories (h : AddsDirectories d d') : KeepsDirectories d d' := by
  intro p hp
  rcases h p with hsame | ⟨-, hmade⟩
  · exact hsame.trans hp
  · exact hmade

theorem addsDirectories_put (hnone : d.get? there = none) :
    AddsDirectories d (d.put there .directory) := by
  intro p
  by_cases hp : p = there
  · subst hp
    have hplace : p ≠ [] := ne_nil_of_get? fun h => nomatch hnone.symm.trans h
    exact .inr ⟨hnone, get?_put_self hplace _ d⟩
  · exact .inl (get?_put_of_ne hp _ d)

/-- A path that leads to a directory can be entered name by name. -/
theorem foldlM_enter_of_locate (h : d.locate p = .ok there)
    (hdirectory : d.get? there = some .directory) : p.foldlM d.enter [] = .ok there := by
  unfold locate at h
  split at h
  · next hnil =>
    rw [List.getLast?_eq_none_iff.1 hnil]
    exact h
  · next last hlast =>
    obtain ⟨parent, hparent, hplace⟩ := bind_eq_ok h
    rw [← List.dropLast_append_getLast? last hlast, List.foldlM_append, hparent]
    show [last].foldlM d.enter parent = .ok there
    rw [List.foldlM_cons, enter]
    by_cases hup : last = ".."
    · rw [if_pos hup] at hplace ⊢
      exact hplace
    · rw [if_neg hup] at hplace ⊢
      cases hplace
      rw [hdirectory]
      rfl

/-- The directory that was made so far can be entered. -/
def Entered (state : Path × Disk) : Prop :=
  ∃ there, state.1.foldlM state.2.enter [] = .ok there

/-- Steps that each enter one more name and add directories at most do so together. -/
theorem of_foldlM {f : Path × Disk → String → Except FileError (Path × Disk)}
    (hstep : ∀ state name next, f state name = .ok next →
      next.1 = state.1 ++ [name] ∧ Entered next ∧ AddsDirectories state.2 next.2)
    {names : List String} {state last : Path × Disk} (hstart : Entered state)
    (h : names.foldlM f state = .ok last) :
    last.1 = state.1 ++ names ∧ Entered last ∧ AddsDirectories state.2 last.2 := by
  induction names generalizing state with
  | nil =>
      cases h
      exact ⟨(List.append_nil _).symm, hstart, .refl _⟩
  | cons name names ih =>
      rw [List.foldlM_cons] at h
      obtain ⟨next, hnext, hmore⟩ := bind_eq_ok h
      obtain ⟨hpath, hentered, hadds⟩ := hstep state name next hnext
      obtain ⟨hpath', hentered', hadds'⟩ := ih hentered hmore
      rw [hpath, List.append_assoc] at hpath'
      exact ⟨hpath', hentered', hadds.trans hadds'⟩

/-- A directory that was made can be entered, and nothing else changes than that directories may
have been made on the way. -/
theorem makeDirectory_eq_ok (h : d.makeDirectory p = .ok made) :
    (∃ there, p.foldlM made.enter [] = .ok there) ∧ AddsDirectories d made := by
  unfold makeDirectory at h
  obtain ⟨⟨last, after⟩, hsteps, rfl⟩ := map_eq_ok h
  have hstart : Entered ([], d) := ⟨[], rfl⟩
  have hrun := of_foldlM ?_ hstart hsteps
  · obtain ⟨hpath, hentered, hadds⟩ := hrun
    rw [List.nil_append] at hpath
    cases hpath
    exact ⟨hentered, hadds⟩
  · rintro ⟨here, before⟩ name next hnext
    dsimp only at hnext
    split at hnext
    · cases hnext
    · next there hthere =>
      split at hnext
      · next hdirectory =>
        cases hnext
        exact ⟨rfl, ⟨there, foldlM_enter_of_locate hthere hdirectory⟩, .refl _⟩
      · next hnone =>
        cases hnext
        have hadds := addsDirectories_put hnone
        have hplace : there ≠ [] := ne_nil_of_get? fun h => nomatch hnone.symm.trans h
        refine ⟨rfl, ⟨there, foldlM_enter_of_locate ?_ (get?_put_self hplace _ _)⟩, hadds⟩
        exact locate_of_keeps hadds.keepsDirectories hthere
      · cases hnext

/-- A path in which something is listed can be entered. -/
theorem exists_enter_of_mem_list {name : String} (h : name ∈ d.list p) :
    ∃ there, p.foldlM d.enter [] = .ok there := by
  unfold list at h
  split at h
  · next there hfind hthere =>
    rw [find, hthere] at hfind
    exact ⟨there, foldlM_enter_of_locate hthere (Except.ok.inj hfind)⟩
  · cases h

end Disk

namespace Batch

variable {d made : Disk} {input outDir file : Path}

theorem of_mem_dataFiles (h : file ∈ dataFiles d input) :
    ∃ name, isDataName name = true ∧ name ∈ d.list input ∧ file = input ++ [name] := by
  obtain ⟨name, hname, rfl⟩ := List.mem_map.1 h
  rw [List.mem_mergeSort, List.mem_filter] at hname
  exact ⟨name, hname.2, hname.1, rfl⟩

theorem ne_of_isDataName {name other : String} (h : isDataName name = true)
    (hother : isDataName other = false) : name ≠ other := by
  rintro rfl
  rw [h] at hother
  cases hother

theorem exists_locate_of_mem_dataFiles (h : file ∈ dataFiles d input) :
    ∃ there, d.locate file = .ok there := by
  obtain ⟨name, hname, hlist, rfl⟩ := of_mem_dataFiles h
  obtain ⟨parent, hparent⟩ := Disk.exists_enter_of_mem_list hlist
  have hup : name ≠ ".." := ne_of_isDataName hname (by decide)
  exact ⟨parent ++ [name], by rw [Disk.locate_append_singleton hup, hparent]; rfl⟩

theorem exists_locate_output (hmade : d.makeDirectory outDir = .ok made) (format : Format)
    (files : List Path) (file : Path) :
    ∃ there, made.locate (outDir ++ [outputName format files file]) = .ok there := by
  obtain ⟨⟨parent, hparent⟩, -⟩ := Disk.makeDirectory_eq_ok hmade
  refine ⟨parent ++ [outputName format files file], ?_⟩
  rw [Disk.locate_append_singleton (outputName_ne_up format files file), hparent]
  rfl

theorem exists_joined_append (separator : String) (names : List String) :
    ∃ before, ∀ name, joined separator (names ++ [name]) = before ++ name := by
  induction names with
  | nil => exact ⟨"", fun name => String.empty_append.symm⟩
  | cons first rest ih =>
      obtain ⟨before, hbefore⟩ := ih
      refine ⟨first ++ separator ++ before, fun name => ?_⟩
      have hcons : joined separator (first :: (rest ++ [name])) =
          first ++ separator ++ joined separator (rest ++ [name]) := by
        cases rest <;> rfl
      rw [List.cons_append, hcons, hbefore, ← String.append_assoc]

/-- The text of a path ends with its last name; only the root itself is written otherwise. -/
theorem exists_text_append (input : Path) :
    ∃ before, ∀ name ≠ "/", Path.text (input ++ [name]) = before ++ name := by
  by_cases hroot : ∃ rest, input = "/" :: rest
  · obtain ⟨rest, rfl⟩ := hroot
    obtain ⟨before, hbefore⟩ := exists_joined_append "/" rest
    refine ⟨"/" ++ before, fun name _ => ?_⟩
    rw [List.cons_append, Path.text, hbefore, String.append_assoc]
  · obtain ⟨before, hbefore⟩ := exists_joined_append "/" input
    refine ⟨before, fun name hname => ?_⟩
    rw [Path.text, hbefore]
    · simp
    · intro names heq
      cases input with
      | nil => exact hname (List.cons.inj heq).1
      | cons first rest =>
          rw [(List.cons.inj heq).1] at hroot
          exact hroot ⟨rest, rfl⟩

theorem text_inj_of_mem_dataFiles {other : Path} (h : file ∈ dataFiles d input)
    (hother : other ∈ dataFiles d input) (htext : file.text = other.text) : file = other := by
  obtain ⟨name, hname, -, rfl⟩ := of_mem_dataFiles h
  obtain ⟨name', hname', -, rfl⟩ := of_mem_dataFiles hother
  obtain ⟨before, hbefore⟩ := exists_text_append input
  have hroot : isDataName "/" = false := by decide
  rw [hbefore name (ne_of_isDataName hname hroot), hbefore name' (ne_of_isDataName hname' hroot),
    String.append_right_inj] at htext
  rw [htext]

end Batch
end Receipt.Command
