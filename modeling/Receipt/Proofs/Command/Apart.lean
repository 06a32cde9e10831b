import Receipt.Proofs.Command.Progress

/-!
# Files that do not get in each other's way

If no file of a batch has its output where another data file is, `Apart`, then each task reads what
was there at the start, whatever steps the others took, `upheld_unchanged`. So its result is the one
that its file has on its own, and all schedules give the same, `eq_of_gives`. This is so whenever the
outputs go to another directory, `apart_of_ne`.

Files that do get in each other's way are those of `overwrittenDisk`: the output of one is another
data file, and what becomes of that file depends on which task comes first.
-/
namespace Receipt.Command

namespace Batch

open Disk

variable [Host] {b : Batch} {made d : Disk} {input outDir file : Path} {files : List Path} {phase : Phase}

/-- No file has its output where another data file is. -/
def Apart (b : Batch) (made : Disk) (outDir : Path) (files : List Path) : Prop :=
  ∀ p ∈ files, ∀ q ∈ files, p ≠ q → made.locate (b.outputPath outDir files p) ≠ made.locate q

theorem prepare_congr (h : d.read file = made.read file) :
    b.prepare d file = b.prepare made file := by
  unfold prepare loadData Document.load
  rw [h]

/-- What comes of a file of a batch that is built from on its own. -/
def alone (b : Batch) (d : Disk) (outDir : Path) (files : List Path) (file : Path) :
    Except Failure FileResult :=
  (b.composeFile d file outDir (some (outputName b.format files file))).1

theorem alone_withWorkers (workers : Int) :
    { b with workers }.alone made outDir files = b.alone made outDir files := rfl

theorem alone_eq_written {after : Disk} {built : Built} {text : String}
    (hprepare : b.prepare made file = .ok (built, text))
    (hwrite : made.write (b.outputPath outDir files file) (Text.Utf8.ofString text) = .ok after) :
    b.alone made outDir files file = .ok (.written file (b.outputPath outDir files file) built) := by
  have htry : b.tryFile made file outDir (outputName b.format files file) =
      .ok (.written file (b.outputPath outDir files file) built, after) := by
    rw [tryFile_eq, hprepare]
    show ((made.write (b.outputPath outDir files file) (Text.Utf8.ofString text)).mapError
      Failure.file).map _ = _
    rw [hwrite]
    rfl
  rw [alone, composeFile, Option.getD_some, htry]

theorem alone_of_tryFile {e : Failure}
    (h : b.tryFile made file outDir (outputName b.format files file) = .error e) :
    b.alone made outDir files file = if e.reported then .ok (.failed file e) else .error e := by
  rw [alone, composeFile, Option.getD_some, h]
  dsimp only
  split <;> rfl

theorem alone_of_prepare {e : Failure} (h : b.prepare made file = .error e) :
    b.alone made outDir files file = if e.reported then .ok (.failed file e) else .error e := by
  refine alone_of_tryFile ?_
  rw [tryFile_eq, h]
  rfl

theorem alone_of_write {built : Built} {text : String} {e : FileError}
    (hprepare : b.prepare made file = .ok (built, text))
    (hwrite : made.write (b.outputPath outDir files file) (Text.Utf8.ofString text) = .error e) :
    b.alone made outDir files file = .ok (.failed file (.file e)) := by
  have htry : b.tryFile made file outDir (outputName b.format files file) = .error (.file e) := by
    rw [tryFile_eq, hprepare]
    show ((made.write (b.outputPath outDir files file) (Text.Utf8.ofString text)).mapError
      Failure.file).map _ = _
    rw [hwrite]
    rfl
  exact alone_of_tryFile htry

/-- What a task made so far of what was there at the start. -/
def Made (b : Batch) (made : Disk) (outDir : Path) (files : List Path) (d : Disk) (file : Path) :
    Phase → Prop
  | .waiting | .started => d.read file = made.read file
  | .prepared built text => b.prepare made file = .ok (built, text)
  | .opened there built text => b.prepare made file = .ok (built, text) ∧
      made.locate (b.outputPath outDir files file) = .ok there ∧ made.get? there ≠ some .directory
  | .finished r => b.alone made outDir files file = .ok r
  | .collected => True

/-- The task is not touched by the others. -/
def Unchanged (b : Batch) (made : Disk) (outDir : Path) (files : List Path) (d : Disk) (file : Path)
    (phase : Phase) : Prop :=
  SameDirectories made d ∧ b.Made made outDir files d file phase

/-- A step of a task changes nothing but the file at the place of its output. -/
theorem Works.disk_eq {d' : Disk} {phase' : Phase}
    (hout : ∃ there, made.locate (b.outputPath outDir files file) = .ok there)
    (hunchanged : b.Unchanged made outDir files d file phase)
    (h : b.Works file (b.outputPath outDir files file) d phase d' phase') :
    d' = d ∨ ∃ there bytes, made.locate (b.outputPath outDir files file) = .ok there ∧
      d.get? there ≠ some .directory ∧ d' = d.put there (.file bytes) := by
  obtain ⟨hsame, hmade⟩ := hunchanged
  cases h with
  | prepare => exact .inl rfl
  | fail => exact .inl rfl
  | refuse => exact .inl rfl
  | @openOutput built text there hthere hfree =>
      obtain ⟨place, hplace⟩ := hout
      exact .inr ⟨there, [], hsame.locate_eq hplace hthere, hfree, rfl⟩
  | @write built text there =>
      obtain ⟨-, hplace, hfree⟩ := hmade
      have hfree' : d.get? there ≠ some .directory := fun h => hfree ((hsame there).2 h)
      exact .inr ⟨there, _, hplace, hfree', rfl⟩

/-- What a task makes in a step of its own is made of what was there at the start. -/
theorem made_of_works {d' : Disk} {phase' : Phase}
    (hout : ∃ there, made.locate (b.outputPath outDir files file) = .ok there)
    (hunchanged : b.Unchanged made outDir files d file phase)
    (h : b.Works file (b.outputPath outDir files file) d phase d' phase') :
    b.Made made outDir files d' file phase' := by
  obtain ⟨hsame, hmade⟩ := hunchanged
  obtain ⟨place, hplace⟩ := hout
  cases h with
  | prepare hprepare => exact (prepare_congr hmade).symm.trans hprepare
  | fail hprepare hreported =>
      have hprepare' := (prepare_congr hmade).symm.trans hprepare
      exact (alone_of_prepare hprepare').trans (if_pos hreported)
  | @openOutput built text there hthere hfree =>
      exact ⟨hmade, hsame.locate_eq hplace hthere, fun h => hfree ((hsame there).1 h)⟩
  | refuse hwrite =>
      have hwrite' := write_eq_error_of_same hsame hplace hwrite
      exact alone_of_write hmade (write_eq_error hwrite' _)
  | write =>
      obtain ⟨hprepare, hthere, hfree⟩ := hmade
      exact alone_eq_written hprepare (write_of_locate hthere hfree _)

/-- A file that is read at another place is as it was. -/
theorem made_of_read {d' : Disk} (h : d'.read file = d.read file)
    (hmade : b.Made made outDir files d file phase) : b.Made made outDir files d' file phase := by
  cases phase with
  | waiting => exact h.trans hmade
  | started => exact h.trans hmade
  | _ => exact hmade

/-- Tasks whose files are apart do not touch each other. -/
theorem upheld_unchanged (hfile : ∀ p ∈ files, ∃ place, made.locate p = .ok place)
    (hout : ∀ p, ∃ there, made.locate (b.outputPath outDir files p) = .ok there)
    (hapart : b.Apart made outDir files) :
    b.Upheld outDir files (b.Unchanged made outDir files)
      (fun r => b.alone made outDir files r.file = .ok r) where
  start h := h
  own _ hunchanged hwork := by
    refine ⟨?_, made_of_works (hout _) hunchanged hwork⟩
    rcases hwork.disk_eq (hout _) hunchanged with rfl | ⟨there, bytes, -, hfree, rfl⟩
    · exact hunchanged.1
    · exact hunchanged.1.trans (sameDirectories_put hfree bytes)
  other hmem hmem' hne hunchanged hwork hunchanged' := by
    rcases hwork.disk_eq (hout _) hunchanged with rfl | ⟨there, bytes, hthere, hfree, rfl⟩
    · exact hunchanged'
    · obtain ⟨place, hplace⟩ := hfile _ hmem'
      have hplaces : place ≠ there := by
        rintro rfl
        exact hapart _ hmem _ hmem' hne.symm (hthere.trans hplace.symm)
      have hread := read_put_of_ne (locate_of_keeps hunchanged.1.keeps hplace) hplaces hfree bytes
      exact ⟨hunchanged'.1.trans (sameDirectories_put hfree bytes),
        made_of_read hread hunchanged'.2⟩
  told {d file r} h := by
    have houtcome := outcome_composeFile b made file outDir (outputName b.format files file)
    have halone : b.alone made outDir files file = .ok r := h.2
    rw [alone] at halone
    rw [halone] at houtcome
    rw [houtcome.file_eq]
    exact ⟨rfl, halone⟩
  collected h := ⟨h.1, trivial⟩

section DataFiles

variable {stats counted : Stats} {rs : List FileResult}

omit [Host] in
/-- Outputs that go to another directory are apart from the data files. -/
theorem apart_of_ne (hmade : d.makeDirectory outDir = .ok made)
    (hne : outDir.foldlM made.enter [] ≠ input.foldlM made.enter []) :
    b.Apart made outDir (dataFiles d input) := by
  intro p _ q hq _ heq
  obtain ⟨name, hname, -, rfl⟩ := of_mem_dataFiles hq
  obtain ⟨⟨parent, hparent⟩, -⟩ := makeDirectory_eq_ok hmade
  rw [outputPath, locate_append_singleton (outputName_ne_up _ _ _),
    locate_append_singleton (ne_of_isDataName hname (by decide)), hparent] at heq
  obtain ⟨parent', hparent', hlast⟩ := map_eq_ok heq.symm
  rw [(List.append_inj' hlast rfl).1] at hparent'
  exact hne (hparent.trans hparent'.symm)

/-- Whatever steps were taken, tasks whose files are apart have made what they make alone. -/
theorem sound_of_apart (hmap : d.IsMap) (hmade : d.makeDirectory outDir = .ok made)
    (hapart : b.Apart made outDir (dataFiles d input)) {s : Pool}
    (h : b.Steps outDir (dataFiles d input) (.start made (dataFiles d input) stats) s) :
    Sound (dataFiles d input) (b.Unchanged made outDir (dataFiles d input))
      (fun r => b.alone made outDir (dataFiles d input) r.file = .ok r) stats s := by
  have hkeeps := (makeDirectory_eq_ok hmade).2.keepsDirectories
  have hfile : ∀ p ∈ dataFiles d input, ∃ place, made.locate p = .ok place := by
    intro p hp
    obtain ⟨place, hplace⟩ := exists_locate_of_mem_dataFiles hp
    exact ⟨place, locate_of_keeps hkeeps hplace⟩
  have hupheld := upheld_unchanged hfile (exists_locate_output hmade b.format _) hapart
  refine sound_of_steps hupheld (nodup_dataFiles hmap input) h (sound_start fun p _ => ?_)
  exact ⟨fun _ => Iff.rfl, rfl⟩

theorem alone_of_gives (hmap : d.IsMap) (hmade : d.makeDirectory outDir = .ok made)
    (hapart : b.Apart made outDir (dataFiles d input))
    (h : b.Gives stats d input outDir rs counted) {r : FileResult} (hr : r ∈ rs) :
    b.alone made outDir (dataFiles d input) r.file = .ok r := by
  cases h with
  | empty => cases hr
  | ended hfiles hmade' hsteps hended =>
      rw [hmade] at hmade'
      cases hmade'
      exact (sound_of_apart hmap hmade hapart hsteps).told r (List.mem_mergeSort.1 hr)

/-- What a batch gives, if its files are apart, is what comes of each of them alone. -/
theorem map_ok_perm_of_gives (hmap : d.IsMap) (hmade : d.makeDirectory outDir = .ok made)
    (hapart : b.Apart made outDir (dataFiles d input))
    (h : b.Gives stats d input outDir rs counted) :
    (rs.map .ok).Perm ((dataFiles d input).map (b.alone made outDir (dataFiles d input))) := by
  have halone : rs.map .ok =
      (rs.map FileResult.file).map (b.alone made outDir (dataFiles d input)) := by
    rw [List.map_map]
    exact List.map_congr_left fun r hr => (alone_of_gives hmap hmade hapart h hr).symm
  rw [halone]
  exact (of_gives hmap h).2.1.map _

/-- If the files are apart, what a batch gives does not depend on the schedule or on how many work
on it. -/
theorem eq_of_gives (hmap : d.IsMap)
    (hapart : ∀ made, d.makeDirectory outDir = .ok made → b.Apart made outDir (dataFiles d input))
    (h : b.Gives stats d input outDir rs counted) {workers : Int} {rs' : List FileResult}
    {counted' : Stats} (h' : { b with workers }.Gives stats d input outDir rs' counted') :
    rs' = rs ∧ counted' = counted := by
  obtain ⟨hsorted, hfiles, hcounted⟩ := of_gives hmap h
  obtain ⟨hsorted', hfiles', hcounted'⟩ := of_gives hmap h'
  have hperm : rs'.Perm rs := by
    cases hmade : d.makeDirectory outDir with
    | error e =>
        have hnone : dataFiles d input = [] := by
          cases h with
          | empty hnone => exact hnone
          | ended _ hmade' =>
              rw [hmade] at hmade'
              cases hmade'
        rw [hnone] at hfiles hfiles'
        rw [List.map_eq_nil_iff.1 hfiles.eq_nil, List.map_eq_nil_iff.1 hfiles'.eq_nil]
    | ok made =>
        have hrs := map_ok_perm_of_gives hmap hmade (hapart made hmade) h
        have hapart' : { b with workers }.Apart made outDir (dataFiles d input) := hapart made hmade
        have hrs' := map_ok_perm_of_gives hmap hmade hapart' h'
        rw [alone_withWorkers] at hrs'
        exact (List.map_perm_map_iff fun _ _ => Except.ok.inj).1 (hrs'.trans hrs.symm)
  have heq : rs' = rs :=
    hperm.eq_of_pairwise (fun r r' _ _ hlt hgt => absurd hlt hgt.not_gt) hsorted' hsorted
  exact ⟨heq, by rw [hcounted, hcounted', heq]⟩

/-- If the files are apart and some schedule gives results, no task can raise, so all schedules do. -/
theorem ends_of_gives (hmap : d.IsMap) (hmade : d.makeDirectory outDir = .ok made)
    (hapart : b.Apart made outDir (dataFiles d input))
    (h : b.Gives stats d input outDir rs counted) {workers : Int} (hworkers : 1 ≤ workers)
    (first : Stats) :
    { b with workers }.Ends outDir (dataFiles d input)
      (.start made (dataFiles d input) first) := by
  refine ends_of_not_raises hworkers _ fun s hsteps => ?_
  rintro ⟨file, e, htask, hprepare, hescaped⟩
  have hapart' : { b with workers }.Apart made outDir (dataFiles d input) := hapart
  have hsound := sound_of_apart hmap hmade hapart' hsteps
  have hfile : file ∈ dataFiles d input := hsound.files_eq ▸ List.mem_map_of_mem htask
  have hread : s.disk.read file = made.read file := (hsound.phases _ htask).2
  have hraised : b.alone made outDir (dataFiles d input) file = .error e := by
    have hprepare' : b.prepare made file = .error e := (prepare_congr hread).symm.trans hprepare
    rw [alone_of_prepare hprepare', hescaped]
    rfl
  obtain ⟨r, hr, rfl⟩ := List.mem_map.1 ((of_gives hmap h).2.1.mem_iff.2 hfile)
  rw [alone_of_gives hmap hmade hapart h hr] at hraised
  cases hraised

end DataFiles

/-- A batch that takes its files in their order gives what some schedule gives. Under every schedule
the results are sorted strictly, one for each file, and the counters grow by what the results say. If
no file has its output where another data file is, all schedules give the same, with any number of
workers, and none of them fails to. -/
theorem composeBatch_scheduled (b : Batch) (stats : Stats) {d : Disk} (hmap : d.IsMap)
    (input outDir : Path) :
    let files := dataFiles d input
    let first : Stats := { stats with total := files.length }
    (∀ rs counted after, b.composeBatch stats d input outDir = (.ok rs, counted, after) →
        b.Gives stats d input outDir rs counted) ∧
      (∀ rs counted, b.Gives stats d input outDir rs counted →
        (rs.Pairwise fun r r' => r.file.text < r'.file.text) ∧
          (rs.map FileResult.file).Perm files ∧ counted = Stats.plus first rs) ∧
      ((∀ made, d.makeDirectory outDir = .ok made → b.Apart made outDir files) →
        ∀ rs counted, b.Gives stats d input outDir rs counted → ∀ workers : Int,
          (∀ rs' counted', { b with workers }.Gives stats d input outDir rs' counted' →
            rs' = rs ∧ counted' = counted) ∧
          (1 ≤ workers → ∀ made, d.makeDirectory outDir = .ok made →
            { b with workers }.Ends outDir files (.start made files first))) := by
  refine ⟨fun rs counted after h => gives_of_composeBatch hmap h, fun rs counted h => of_gives hmap h,
    fun hapart rs counted h workers => ⟨fun rs' counted' h' => eq_of_gives hmap hapart h h', ?_⟩⟩
  exact fun hworkers made hmade => ends_of_gives hmap hmade (hapart made hmade) h hworkers _

omit [Host] in
theorem composeBatch_scheduled_same_stem :
    letI := Host.standard 2025
    let files := dataFiles sameStemDisk ["in"]
    sameStemDisk.IsMap ∧ ∃ rs counted,
      undeclaredBatch.Gives .zero sameStemDisk ["in"] ["out"] rs counted ∧ counted = ⟨2, 2, 0, 2⟩ ∧
        (rs.map FileResult.file).Perm files ∧
        ∀ workers rs' counted',
          { undeclaredBatch with workers }.Gives .zero sameStemDisk ["in"] ["out"] rs' counted' →
            rs' = rs ∧ counted' = counted := by
  let host := Host.standard 2025
  intro files
  have hmap := sameStemDisk_isMap
  obtain ⟨hserial, hgives, hsame⟩ := composeBatch_scheduled undeclaredBatch .zero hmap ["in"] ["out"]
  have hapart : ∀ made, sameStemDisk.makeDirectory ["out"] = .ok made →
      undeclaredBatch.Apart made ["out"] files := by
    intro made hmade
    refine apart_of_ne hmade ?_
    obtain rfl : sameStemDisk.put ["out"] .directory = made := by
      have hout : sameStemDisk.makeDirectory ["out"] =
        .ok (sameStemDisk.put ["out"] .directory) := by decide +kernel
      exact Except.ok.inj (hout.symm.trans hmade)
    decide +kernel
  obtain ⟨rs, after, hrun⟩ := composeBatch_sameStemDisk
  have hrs := hserial rs _ after hrun
  exact ⟨hmap, rs, _, hrs, rfl, (hgives rs _ hrs).2.1,
    fun workers => (hsame hapart rs _ hrs workers).1⟩

/-- The output of the second of these files is the third. -/
def overwrittenDisk : Disk :=
  [(["in"], .directory), (["in", "x.json"], .file (Text.Utf8.ofString "{}")),
    (["in", "x.yml"], .file (Text.Utf8.ofString "{}")),
    (["in", "x.yml.json"], .file [])]

omit [Host] in
theorem dataFiles_overwrittenDisk :
    dataFiles overwrittenDisk ["in"] = [["in", "x.json"], ["in", "x.yml"], ["in", "x.yml.json"]] := by
  have hlist : (overwrittenDisk.list ["in"]).filter isDataName = ["x.json", "x.yml", "x.yml.json"] := by
    decide +kernel
  rw [dataFiles, hlist, List.mergeSort_of_pairwise (by decide +kernel)]
  rfl

omit [Host] in
/-- Files that are not apart can have other results under another schedule. A file that is empty fails
if its task is the first to read it, and is built from if it was overwritten before. -/
theorem exists_gives_ne :
    letI := Host.standard 2025
    ¬ ∀ (b : Batch) (stats : Stats) (d : Disk) (input outDir : Path), d.IsMap →
      ∀ rs counted rs' counted', b.Gives stats d input outDir rs counted →
        b.Gives stats d input outDir rs' counted' → rs' = rs ∧ counted' = counted := by
  let host := Host.standard 2025
  intro h
  have hmap : overwrittenDisk.IsMap := by
    unfold IsMap
    decide +kernel
  have hmade : overwrittenDisk.makeDirectory ["in"] = .ok overwrittenDisk := by decide +kernel
  have hfiles : dataFiles overwrittenDisk ["in"] ≠ [] := by
    rw [dataFiles_overwrittenDisk]
    exact List.cons_ne_nil _ _
  have hworkers : 1 ≤ undeclaredBatch.workers := by decide
  let run (order : List Path) := gather ⟨(dataFiles overwrittenDisk ["in"]).length, 0, 0, 0⟩
    (undeclaredBatch.composeFiles ["in"] (dataFiles overwrittenDisk ["in"]) overwrittenDisk order).1
  have hgives : ∀ order, order.Perm (dataFiles overwrittenDisk ["in"]) →
      (run order).2.isOk = true →
        ∃ rs, undeclaredBatch.Gives .zero overwrittenDisk ["in"] ["in"] rs (run order).1 :=
    fun order horder => exists_gives_of_gather hmap hfiles hmade hworkers horder rfl
  have hinOrder : (run (dataFiles overwrittenDisk ["in"])).2.isOk = true ∧
      (run (dataFiles overwrittenDisk ["in"])).1.composed = 3 := by
    simp only [run, dataFiles_overwrittenDisk]
    decide +kernel
  let lastFirst : List Path := [["in", "x.yml.json"], ["in", "x.json"], ["in", "x.yml"]]
  have hlastFirst : (run lastFirst).2.isOk = true ∧ (run lastFirst).1.composed = 2 := by
    simp only [run, lastFirst, dataFiles_overwrittenDisk]
    decide +kernel
  have hperm : lastFirst.Perm (dataFiles overwrittenDisk ["in"]) := by
    rw [dataFiles_overwrittenDisk]
    decide +kernel
  obtain ⟨rs, hrs⟩ := hgives _ (.refl _) hinOrder.1
  obtain ⟨rs', hrs'⟩ := hgives _ hperm hlastFirst.1
  have hcounted := (h _ _ _ _ _ hmap _ _ _ _ hrs hrs').2
  have hcomposed := hlastFirst.2
  rw [hcounted, hinOrder.2] at hcomposed
  cases hcomposed

end Batch
end Receipt.Command
