import Receipt.Proofs.Command.Schedule

/-!
# One file after another

Working on the files one after another, each from its start to its end, is a schedule of a batch in
whatever order the files are taken: `gives_of_composeFiles`. A batch takes them in their order,
`gives_of_composeBatch`.
-/
namespace Receipt.Command

namespace Batch

variable {b : Batch} {outDir : Path} {files : List Path}

section OneTask

variable [Host] {d : Disk} {front back : List (Path × Phase)} {file : Path} {rs : List FileResult}
  {stats : Stats}

theorem Steps.work {s : Pool} {d' : Disk} {phase phase' : Phase}
    (h : b.Steps outDir files s ⟨d, front ++ (file, phase) :: back, rs, stats⟩)
    (hwork : b.Works file (b.outputPath outDir files file) d phase d' phase') :
    b.Steps outDir files s ⟨d', front ++ (file, phase') :: back, rs, stats⟩ :=
  h.tail (.work hwork)

/-- A task that is started when a worker is free can be brought to its end at once. -/
theorem steps_of_composeFile {after : Disk} {r : FileResult}
    (hfree : ((front ++ back).countP (·.2.isRunning) : Int) < b.workers)
    (h : b.composeFile d file outDir (some (outputName b.format files file)) = (.ok r, after)) :
    b.Steps outDir files ⟨d, front ++ (file, .waiting) :: back, rs, stats⟩
      ⟨after, front ++ (file, .collected) :: back, rs ++ [r], stats.count r⟩ := by
  have hstart : b.Steps outDir files ⟨d, front ++ (file, .waiting) :: back, rs, stats⟩
      ⟨d, front ++ (file, .started) :: back, rs, stats⟩ := .single (.start hfree)
  have houtcome := outcome_composeFile b d file outDir (outputName b.format files file)
  rw [h] at houtcome
  suffices hfinished : b.Steps outDir files ⟨d, front ++ (file, .waiting) :: back, rs, stats⟩
      ⟨after, front ++ (file, .finished r) :: back, rs, stats⟩ from hfinished.tail .collect
  cases houtcome with
  | written htry =>
      rw [tryFile_eq] at htry
      obtain ⟨⟨built, text⟩, hprepare, htry⟩ := bind_eq_ok htry
      obtain ⟨written, hwrite, heq⟩ := map_eq_ok htry
      cases heq
      obtain ⟨there, hthere, hfree, rfl⟩ := Disk.write_eq_ok (mapError_eq_ok hwrite)
      have hwritten := ((hstart.work (.prepare hprepare)).work (.openOutput hthere hfree)).work .write
      rwa [Disk.put_put] at hwritten
  | reported htry hreported =>
      rw [tryFile_eq] at htry
      rcases bind_eq_error htry with hprepare | ⟨⟨built, text⟩, hprepare, hwrite⟩
      · exact hstart.work (.fail hprepare hreported)
      · obtain ⟨e, hwrite, rfl⟩ := mapError_eq_error (map_eq_error hwrite)
        exact (hstart.work (.prepare hprepare)).work (.refuse (Disk.write_eq_error hwrite []))

end OneTask

section Serial

variable {d after : Disk} {stats : Stats} {rest : List Path}

/-- The tasks when the results of some files are still to come and none is worked on. -/
def tasksLeft (files rest : List Path) : List (Path × Phase) :=
  files.map fun file => (file, if file ∈ rest then .waiting else .collected)

theorem countP_isRunning_tasksLeft (files rest : List Path) :
    (tasksLeft files rest).countP (·.2.isRunning) = 0 := by
  rw [List.countP_eq_zero]
  intro task htask
  obtain ⟨file, -, rfl⟩ := List.mem_map.1 htask
  split <;> exact Bool.false_ne_true

theorem tasksLeft_self (files : List Path) : tasksLeft files files = files.map (·, .waiting) :=
  List.map_congr_left fun file hfile => by rw [if_pos hfile]

theorem tasksLeft_perm (files : List Path) {rest' : List Path} (h : rest.Perm rest') :
    tasksLeft files rest = tasksLeft files rest' := by
  simp only [tasksLeft, h.mem_iff]

/-- The files beside the first one that is left are as far with it as without it. -/
theorem tasksLeft_cons {front back : List Path} {file : Path}
    (hnodup : (front ++ file :: back).Nodup) (hfile : file ∉ rest) :
    tasksLeft (front ++ file :: back) (file :: rest) =
        tasksLeft front rest ++ (file, .waiting) :: tasksLeft back rest ∧
      tasksLeft (front ++ file :: back) rest =
        tasksLeft front rest ++ (file, .collected) :: tasksLeft back rest := by
  have hothers : ∀ side : List Path, file ∉ side →
      tasksLeft side (file :: rest) = tasksLeft side rest := by
    intro side hside
    refine List.map_congr_left fun other hother => ?_
    have hne : other ≠ file := by
      rintro rfl
      exact hside hother
    simp only [List.mem_cons, hne, false_or]
  rw [List.nodup_middle, List.nodup_cons, List.mem_append, not_or] at hnodup
  have hfront := hothers front hnodup.1.1
  have hback := hothers back hnodup.1.2
  simp only [tasksLeft, List.map_append, List.map_cons, List.mem_cons_self, if_true, if_neg hfile]
  exact ⟨by rw [← tasksLeft, ← tasksLeft, hfront, hback]; rfl, trivial⟩

variable [Host]

/-- Files can be brought to their end one after another in any order. -/
theorem steps_of_composeFiles (hworkers : 1 ≤ b.workers) (hnodup : files.Nodup)
    (hrest : rest.Nodup) (hsubset : rest ⊆ files) {rs results : List FileResult}
    (h : b.composeFiles outDir files d rest = (results.map .ok, after)) :
    ∃ s, b.Steps outDir files ⟨d, tasksLeft files rest, rs, stats⟩ s ∧ s.Ended ∧
      s.results = rs ++ results ∧ s.stats = results.foldl Stats.count stats := by
  induction rest generalizing d rs results stats with
  | nil =>
      have hresults : results = [] := List.map_eq_nil_iff.1 (congrArg Prod.fst h).symm
      rw [hresults]
      refine ⟨_, .refl, ?_, (List.append_nil _).symm, rfl⟩
      intro task htask
      obtain ⟨file, -, rfl⟩ := List.mem_map.1 htask
      rfl
  | cons file rest ih =>
      rw [composeFiles_cons] at h
      obtain ⟨hresults, hafter⟩ := Prod.mk.inj h
      cases results with
      | nil => cases hresults
      | cons r results =>
          obtain ⟨hfirst, hmore⟩ := List.cons.inj hresults
          obtain ⟨hfile, hrest⟩ := List.nodup_cons.1 hrest
          obtain ⟨hmem, hsubset⟩ := List.cons_subset.1 hsubset
          let behind := (b.composeFile d file outDir (some (outputName b.format files file))).2
          obtain ⟨s, hsteps, hended, hrs, hstats⟩ :
              ∃ s, b.Steps outDir files ⟨behind, tasksLeft files rest, rs ++ [r], stats.count r⟩ s ∧
                s.Ended ∧ s.results = (rs ++ [r]) ++ results ∧
                s.stats = results.foldl Stats.count (stats.count r) :=
            ih hrest hsubset (Prod.ext hmore hafter)
          obtain ⟨front, back, hsplit⟩ := List.append_of_mem hmem
          have hleft := tasksLeft_cons (hsplit ▸ hnodup) hfile
          rw [← hsplit] at hleft
          rw [hleft.2] at hsteps
          rw [hleft.1]
          have hfree : ((tasksLeft front rest ++ tasksLeft back rest).countP (·.2.isRunning) : Int) <
              b.workers := by
            rw [List.countP_append, countP_isRunning_tasksLeft, countP_isRunning_tasksLeft]
            exact hworkers
          refine ⟨s, (steps_of_composeFile hfree (Prod.ext hfirst rfl)).trans hsteps, hended, ?_,
            hstats⟩
          rw [hrs, List.append_assoc]
          rfl

/-- What comes of taking the files one after another, in any order, is given by a schedule. -/
theorem gives_of_composeFiles {made : Disk} {input : Path} {results : List FileResult}
    (hmap : d.IsMap) (hfiles : dataFiles d input ≠ []) (hmade : d.makeDirectory outDir = .ok made)
    (hworkers : 1 ≤ b.workers) {order : List Path} (horder : order.Perm (dataFiles d input))
    (h : b.composeFiles outDir (dataFiles d input) made order = (results.map .ok, after)) :
    b.Gives stats d input outDir (sorted results)
      (results.foldl Stats.count { stats with total := (dataFiles d input).length }) := by
  have hnodup := nodup_dataFiles hmap input
  let counted : Stats := { stats with total := (dataFiles d input).length }
  obtain ⟨s, hsteps, hended, hresults, hstats⟩ :
      ∃ s, b.Steps outDir (dataFiles d input) ⟨made, tasksLeft (dataFiles d input) order, [], counted⟩
          s ∧ s.Ended ∧ s.results = [] ++ results ∧ s.stats = results.foldl Stats.count counted :=
    steps_of_composeFiles hworkers hnodup (horder.nodup_iff.2 hnodup) horder.subset h
  rw [tasksLeft_perm _ horder, tasksLeft_self] at hsteps
  rw [← hstats, ← List.nil_append results, ← hresults]
  exact .ended hfiles hmade hsteps hended

/-- What is counted when the files are taken in some order is what some schedule gives, if no failure
stops the count. -/
theorem exists_gives_of_gather {made : Disk} {input : Path} (hmap : d.IsMap)
    (hfiles : dataFiles d input ≠ []) (hmade : d.makeDirectory outDir = .ok made)
    (hworkers : 1 ≤ b.workers) {order : List Path} (horder : order.Perm (dataFiles d input))
    {run : Stats × Except Failure (List FileResult)}
    (hrun : gather { stats with total := (dataFiles d input).length }
      (b.composeFiles outDir (dataFiles d input) made order).1 = run) (hok : run.2.isOk = true) :
    ∃ rs, b.Gives stats d input outDir rs run.1 := by
  rcases gather_eq { stats with total := (dataFiles d input).length }
    (b.composeFiles outDir (dataFiles d input) made order).1 with ⟨rs, hrs, -⟩ | ⟨e, -, he⟩
  · rw [hrs, gather_map_ok] at hrun
    rw [← hrun]
    exact ⟨sorted rs,
      gives_of_composeFiles hmap hfiles hmade hworkers horder (Prod.ext hrs rfl)⟩
  · rw [← hrun, he] at hok
    cases hok

/-- What a batch gives is given by the schedule that takes its files in their order. -/
theorem gives_of_composeBatch {counted : Stats} {input : Path} {rs : List FileResult}
    (hmap : d.IsMap) (h : b.composeBatch stats d input outDir = (.ok rs, counted, after)) :
    b.Gives stats d input outDir rs counted := by
  rcases composeBatch_cases h with
    ⟨hfiles, rfl, rfl⟩ | ⟨made, results, hfiles, hmade, hworkers, hrun, rfl, rfl⟩
  · exact .empty hfiles
  · exact gives_of_composeFiles hmap hfiles hmade hworkers (.refl _) hrun

end Serial

end Batch
end Receipt.Command
