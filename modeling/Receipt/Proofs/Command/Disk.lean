import Receipt.Command.Disk
import Receipt.Proofs.Except

/-!
# What writing a file changes

A file that is written is found where its path leads, and what other paths lead to is as before:
`read_write_self`, `read_write_of_ne`. No path leads elsewhere than before, since writing leaves
every directory where it is, `locate_put`.
-/
namespace Receipt.Command.Disk

theorem get?_put_self {p : Path} (hp : p ≠ []) (e : Entry) (d : Disk) :
    (d.put p e).get? p = some e := by
  rw [get?, if_neg hp]
  exact lookup_put_self p e d

theorem get?_put_of_ne {p q : Path} (h : q ≠ p) (e : Entry) (d : Disk) :
    (d.put p e).get? q = d.get? q := by
  rw [get?, get?]
  by_cases hq : q = []
  · rw [if_pos hq, if_pos hq]
  · rw [if_neg hq, if_neg hq]
    exact lookup_put_of_ne h e d

theorem ne_nil_of_get? {d : Disk} {p : Path} (h : d.get? p ≠ some .directory) : p ≠ [] := by
  rintro rfl
  exact h (if_pos rfl)

theorem put_put (d : Disk) (p : Path) (e e' : Entry) :
    (d.put p e).put p e' = d.put p e' := by
  induction d with
  | nil => simp only [put, if_true]
  | cons entry rest ih =>
      by_cases h : entry.1 = p
      · simp only [put, h, if_true]
      · simp only [put, h, if_false, ih]

/-- Files are written where a path leads, if no directory is there. -/
theorem write_eq_ok {d after : Disk} {p : Path} {bytes : List UInt8}
    (h : d.write p bytes = .ok after) :
    ∃ there, d.locate p = .ok there ∧ d.get? there ≠ some .directory ∧
      after = d.put there (.file bytes) := by
  unfold write at h
  split at h
  · cases h
  · next there hthere =>
    split at h
    · cases h
    · next hfree =>
      cases h
      exact ⟨there, hthere, hfree, rfl⟩

theorem write_of_locate {d : Disk} {p there : Path} (hplace : d.locate p = .ok there)
    (hfree : d.get? there ≠ some .directory) (bytes : List UInt8) :
    d.write p bytes = .ok (d.put there (.file bytes)) := by
  rw [write, hplace]
  dsimp only
  split
  · next hdirectory => exact absurd hdirectory hfree
  · rfl

/-- Whether a file can be written does not depend on what is written. -/
theorem write_eq_error {d : Disk} {p : Path} {bytes : List UInt8} {e : FileError}
    (h : d.write p bytes = .error e) (bytes' : List UInt8) : d.write p bytes' = .error e := by
  unfold write at h ⊢
  split at h
  · exact h
  · split at h
    · exact h
    · cases h

/-- Every directory of one disk is one of the other. -/
def KeepsDirectories (d d' : Disk) : Prop :=
  ∀ p, d.get? p = some .directory → d'.get? p = some .directory

section KeepsDirectories

variable {d d' : Disk}

theorem enter_of_keeps (hkeeps : KeepsDirectories d d') {here next : Path} {name : String}
    (h : d.enter here name = .ok next) : d'.enter here name = .ok next := by
  unfold enter at h ⊢
  by_cases hup : name = ".."
  · rw [if_pos hup] at h ⊢
    exact h
  · rw [if_neg hup] at h ⊢
    split at h
    · cases h
    · cases h
    · next hdirectory =>
      rw [hkeeps _ hdirectory]
      exact h

theorem foldlM_enter_of_keeps (hkeeps : KeepsDirectories d d') {names : List String}
    {here last : Path} (h : names.foldlM d.enter here = .ok last) :
    names.foldlM d'.enter here = .ok last := by
  induction names generalizing here with
  | nil => exact h
  | cons name names ih =>
      rw [List.foldlM_cons] at h ⊢
      obtain ⟨next, hnext, hmore⟩ := bind_eq_ok h
      rw [enter_of_keeps hkeeps hnext]
      exact ih hmore

/-- A path leads where it led if no directory is lost. -/
theorem locate_of_keeps (hkeeps : KeepsDirectories d d') {p q : Path} (h : d.locate p = .ok q) :
    d'.locate p = .ok q := by
  unfold locate at h ⊢
  split at h
  · exact h
  · obtain ⟨parent, hparent, hlast⟩ := bind_eq_ok h
    rw [foldlM_enter_of_keeps hkeeps hparent]
    exact hlast

end KeepsDirectories

/-- The same paths lead to directories on both disks. -/
def SameDirectories (d d' : Disk) : Prop :=
  ∀ p, d.get? p = some .directory ↔ d'.get? p = some .directory

section SameDirectories

variable {d d' : Disk} {p place there : Path}

theorem SameDirectories.keeps (h : SameDirectories d d') : KeepsDirectories d d' := fun p => (h p).1

theorem SameDirectories.trans {d'' : Disk} (h : SameDirectories d d')
    (h' : SameDirectories d' d'') : SameDirectories d d'' :=
  fun p => (h p).trans (h' p)

theorem sameDirectories_put (hfree : d.get? there ≠ some .directory) (bytes : List UInt8) :
    SameDirectories d (d.put there (.file bytes)) := by
  intro p
  by_cases hp : p = there
  · subst hp
    rw [get?_put_self (ne_nil_of_get? hfree)]
    exact iff_of_false hfree nofun
  · rw [get?_put_of_ne hp]

/-- A path that leads anywhere leads to the same place on both disks. -/
theorem SameDirectories.locate_eq (hsame : SameDirectories d d') (hplace : d.locate p = .ok place)
    (h : d'.locate p = .ok there) : d.locate p = .ok there := by
  rw [locate_of_keeps hsame.keeps hplace] at h
  rw [hplace, h]

/-- Whether there is a place to write a file to depends on the directories only. -/
theorem write_eq_error_of_same (hsame : SameDirectories d d') (hplace : d.locate p = .ok there)
    {bytes : List UInt8} {e : FileError} (h : d'.write p bytes = .error e) :
    d.write p bytes = .error e := by
  unfold write at h ⊢
  rw [locate_of_keeps hsame.keeps hplace] at h
  rw [hplace]
  dsimp only at h ⊢
  split at h
  · next hdirectory =>
    rw [(hsame there).2 hdirectory]
    exact h
  · cases h

end SameDirectories

theorem locate_put {d : Disk} {there : Path} (hfree : d.get? there ≠ some .directory)
    (bytes : List UInt8) {p q : Path} (h : d.locate p = .ok q) :
    (d.put there (.file bytes)).locate p = .ok q :=
  locate_of_keeps (sameDirectories_put hfree bytes).keeps h

/-- A name behind a path leads to the entry of that name in the directory that the path leads to. -/
theorem locate_append_singleton {d : Disk} {dir : Path} {name : String} (h : name ≠ "..") :
    d.locate (dir ++ [name]) = (dir.foldlM d.enter []).map (· ++ [name]) := by
  unfold locate
  rw [List.getLast?_concat, List.dropLast_concat]
  simp only [if_neg h]
  cases dir.foldlM d.enter [] <;> rfl

/-- Different names in one directory lead to different places. -/
theorem ne_of_locate_append {d : Disk} {dir p q : Path} {name other : String} (hname : name ≠ "..")
    (hother : other ≠ "..") (hne : name ≠ other) (hp : d.locate (dir ++ [name]) = .ok p)
    (hq : d.locate (dir ++ [other]) = .ok q) : p ≠ q := by
  rw [locate_append_singleton hname] at hp
  rw [locate_append_singleton hother] at hq
  obtain ⟨parent, hparent, rfl⟩ := map_eq_ok hp
  obtain ⟨parent', hparent', rfl⟩ := map_eq_ok hq
  rw [hparent] at hparent'
  cases hparent'
  intro heq
  have hlast := (List.append_inj' heq rfl).2
  exact hne (List.cons.inj hlast).1

theorem read_eq_ok {d : Disk} {p : Path} {bytes : List UInt8} (h : d.read p = .ok bytes) :
    ∃ there, d.locate p = .ok there ∧ d.get? there = some (.file bytes) := by
  unfold read at h
  split at h
  · cases h
  · cases h
  · cases h
  · next found hfind =>
    cases h
    obtain ⟨there, hthere, hentry⟩ := bind_eq_ok hfind
    exact ⟨there, hthere, Except.ok.inj hentry⟩

theorem read_of_locate {d : Disk} {p there : Path} {bytes : List UInt8}
    (hthere : d.locate p = .ok there) (hentry : d.get? there = some (.file bytes)) :
    d.read p = .ok bytes := by
  have hfind : d.find p = .ok (some (.file bytes)) := by
    rw [find, hthere, ← hentry]
    rfl
  rw [read, hfind]

/-- What was written is read back. -/
theorem read_write_self {d after : Disk} {p : Path} {bytes : List UInt8}
    (h : d.write p bytes = .ok after) : after.read p = .ok bytes := by
  obtain ⟨there, hthere, hfree, rfl⟩ := write_eq_ok h
  exact read_of_locate (locate_put hfree bytes hthere) (get?_put_self (ne_nil_of_get? hfree) _ d)

/-- Writing at one place leaves what is read at others. -/
theorem read_put_of_ne {d : Disk} {p place there : Path} (hplace : d.locate p = .ok place)
    (hne : place ≠ there) (hfree : d.get? there ≠ some .directory) (bytes : List UInt8) :
    (d.put there (.file bytes)).read p = d.read p := by
  have hfind : (d.put there (.file bytes)).find p = d.find p := by
    rw [find, find, locate_put hfree bytes hplace, hplace]
    show Except.ok ((d.put there (.file bytes)).get? place) = Except.ok (d.get? place)
    rw [get?_put_of_ne hne]
  rw [read, read, hfind]

/-- Writing one file of a directory leaves the others as they were. -/
theorem read_write_of_ne {d after : Disk} {dir : Path} {name other : String}
    {bytes content : List UInt8} (hname : name ≠ "..") (hother : other ≠ "..")
    (hne : name ≠ other) (h : d.write (dir ++ [name]) bytes = .ok after)
    (hread : d.read (dir ++ [other]) = .ok content) :
    after.read (dir ++ [other]) = .ok content := by
  obtain ⟨there, hthere, hfree, rfl⟩ := write_eq_ok h
  obtain ⟨place, hplace, -⟩ := read_eq_ok hread
  have hplaces : place ≠ there := ne_of_locate_append hother hname (Ne.symm hne) hplace hthere
  rw [read_put_of_ne hplace hplaces hfree]
  exact hread

end Receipt.Command.Disk
