import Mathlib.Data.List.Forall2
import Receipt.Command.Batch
import Receipt.Proofs.Command.Disk

/-!
# How a batch goes

Building from one file ends in one of three ways, `Outcome`: the elements are written, a failure is
reported as the result, or a failure that is not reported escapes. A batch is one such step for each
of its files in order, `forall₂_composeFiles`. It gives a result for every file if nothing escapes,
and otherwise the first failure that does, `composeBatch_eq`.
-/
namespace Receipt.Command

namespace FileResult

end FileResult

namespace Batch

variable [Host] {b : Batch} {d after : Disk} {file outDir : Path} {name : String}

/-- What writing from a file is: the file is loaded, the section built and rendered, and the text
written under the name. -/
theorem tryFile_eq_ok {r : FileResult} (h : b.tryFile d file outDir name = .ok (r, after)) :
    ∃ data built text, loadData d file = .ok data ∧
      build b.settings b.registry b.name data = .ok built ∧
      render b.format built.elements = .ok text ∧
      d.write (outDir ++ [name]) (Text.Utf8.ofString text) = .ok after ∧
      r = ⟨file, some (outDir ++ [name]), built.elements.length, built.warnings, none⟩ := by
  obtain ⟨data, hdata, h⟩ := bind_eq_ok h
  obtain ⟨built, hbuilt, h⟩ := bind_eq_ok h
  obtain ⟨text, htext, h⟩ := bind_eq_ok h
  obtain ⟨written, hwritten, h⟩ := bind_eq_ok h
  cases h
  exact ⟨data, built, text, hdata, mapError_eq_ok hbuilt, htext, mapError_eq_ok hwritten, rfl⟩

/-- How building from one file may end: what it gives, and the disk behind it. -/
inductive Outcome (b : Batch) (d : Disk) (file outDir : Path) (name : String) :
    Except Failure FileResult → Disk → Prop
  | written {r : FileResult} {after : Disk} (h : b.tryFile d file outDir name = .ok (r, after)) :
      Outcome b d file outDir name (.ok r) after
  | reported {e : Failure} (h : b.tryFile d file outDir name = .error e)
      (hreported : e.reported = true) :
      Outcome b d file outDir name (.ok ⟨file, none, 0, [], some e.message⟩) d
  | escaped {e : Failure} (h : b.tryFile d file outDir name = .error e)
      (hescaped : e.reported = false) : Outcome b d file outDir name (.error e) d

theorem outcome_composeFile (b : Batch) (d : Disk) (file outDir : Path) (name : String) :
    Outcome b d file outDir name (b.composeFile d file outDir (some name)).1
      (b.composeFile d file outDir (some name)).2 := by
  unfold composeFile
  rw [Option.getD_some]
  cases h : b.tryFile d file outDir name with
  | ok r => exact .written h
  | error e =>
      by_cases hreported : e.reported = true
      · simp only [hreported, if_true]
        exact .reported h hreported
      · simp only [hreported]
        exact .escaped h (Bool.not_eq_true _ ▸ hreported)

namespace Outcome

theorem file_eq {r : FileResult} (h : Outcome b d file outDir name (.ok r) after) :
    r.file = file := by
  cases h with
  | written h =>
      obtain ⟨_, built, _, -, -, -, -, rfl⟩ := tryFile_eq_ok h
      rfl
  | reported => rfl

/-- Only a file that is written has an output, and that is the path it was written to. -/
theorem of_output {r : FileResult} {out : Path} (h : Outcome b d file outDir name (.ok r) after)
    (hout : r.output = some out) :
    out = outDir ++ [name] ∧ b.tryFile d file outDir name = .ok (r, after) ∧
      ∃ content, after.read out = .ok content := by
  cases h with
  | written h =>
      obtain ⟨_, built, text, -, -, -, hwrite, rfl⟩ := tryFile_eq_ok h
      cases hout
      exact ⟨rfl, h, _, Disk.read_write_self hwrite⟩
  | reported => cases hout

/-- Another file of the output directory is left as it was. -/
theorem read_of_ne {o : Except Failure FileResult} {other : String} {content : List UInt8}
    (hname : name ≠ "..") (hother : other ≠ "..") (hne : name ≠ other)
    (h : Outcome b d file outDir name o after)
    (hread : d.read (outDir ++ [other]) = .ok content) :
    after.read (outDir ++ [other]) = .ok content := by
  cases h with
  | written h =>
      obtain ⟨_, _, _, -, -, -, hwrite, -⟩ := tryFile_eq_ok h
      exact Disk.read_write_of_ne hname hother hne hwrite hread
  | reported => exact hread
  | escaped => exact hread

end Outcome

theorem composeFiles_cons (b : Batch) (outDir : Path) (files : List Path) (d : Disk)
    (file : Path) (rest : List Path) :
    b.composeFiles outDir files d (file :: rest) =
      let step := b.composeFile d file outDir (some (outputName b.format files file))
      let more := b.composeFiles outDir files step.2 rest
      (step.1 :: more.1, more.2) := rfl

/-- A file and what came of it, with some disk before it and some disk behind. -/
def Produced (b : Batch) (outDir : Path) (files : List Path) (file : Path)
    (o : Except Failure FileResult) : Prop :=
  ∃ before after, Outcome b before file outDir (outputName b.format files file) o after

/-- Every file of a batch is built from, whatever came of those before it. -/
theorem forall₂_composeFiles (b : Batch) (outDir : Path) (files : List Path) (d : Disk)
    (rest : List Path) :
    List.Forall₂ (b.Produced outDir files) rest (b.composeFiles outDir files d rest).1 := by
  induction rest generalizing d with
  | nil => exact .nil
  | cons file rest ih =>
      rw [composeFiles_cons]
      exact .cons ⟨_, _, outcome_composeFile b d file outDir _⟩ (ih _)

omit [Host] in
theorem gather_ok_cons (stats : Stats) (r : FileResult) (os : List (Except Failure FileResult)) :
    (gather stats (.ok r :: os)).2 = (gather (stats.count r) os).2.map (r :: ·) := rfl

omit [Host] in
/-- Counting goes through all results if nothing escapes, and otherwise up to the first that does. -/
theorem gather_eq (stats : Stats) (os : List (Except Failure FileResult)) :
    (∃ rs, os = rs.map .ok ∧ (gather stats os).2 = .ok rs) ∨
      ∃ e, .error e ∈ os ∧ (gather stats os).2 = .error e := by
  induction os generalizing stats with
  | nil => exact .inl ⟨[], rfl, rfl⟩
  | cons o os ih =>
      cases o with
      | error e => exact .inr ⟨e, List.mem_cons_self, rfl⟩
      | ok r =>
          rw [gather_ok_cons]
          rcases ih (stats.count r) with ⟨rs, rfl, hrs⟩ | ⟨e, hmem, he⟩
          · refine .inl ⟨r :: rs, rfl, ?_⟩
            rw [hrs]
            rfl
          · refine .inr ⟨e, List.mem_cons_of_mem _ hmem, ?_⟩
            rw [he]
            rfl

/-- A batch with a directory to write to and someone to work on it gathers what comes of its files
in order. -/
theorem composeBatch_eq {stats : Stats} {input : Path} {made : Disk}
    (hmade : d.makeDirectory outDir = .ok made) (hworkers : 1 ≤ b.workers)
    (hfiles : dataFiles d input ≠ []) :
    b.composeBatch stats d input outDir =
      let files := dataFiles d input
      let run := b.composeFiles outDir files made files
      let counted := gather { stats with total := files.length } run.1
      (counted.2.map sorted, counted.1, run.2) := by
  have hworking : ¬ b.workers < 1 := by omega
  rw [composeBatch]
  simp only [if_neg hfiles, hmade, if_neg hworking]

omit [Host] in
theorem gather_map_ok (rs : List FileResult) (stats : Stats) :
    gather stats (rs.map .ok) = (rs.foldl Stats.count stats, .ok rs) := by
  induction rs generalizing stats with
  | nil => rfl
  | cons r rs ih =>
      rw [List.map_cons, gather, ih]
      rfl

/-- How a batch can have results: it has no files, or its files all have a result, which is
counted. -/
theorem composeBatch_cases {stats counted : Stats} {input : Path} {rs : List FileResult}
    (h : b.composeBatch stats d input outDir = (.ok rs, counted, after)) :
    (dataFiles d input = [] ∧ rs = [] ∧ counted = { stats with total := 0 }) ∨
      ∃ made results, dataFiles d input ≠ [] ∧ d.makeDirectory outDir = .ok made ∧
        1 ≤ b.workers ∧ b.composeFiles outDir (dataFiles d input) made (dataFiles d input) =
          (results.map .ok, after) ∧
        rs = sorted results ∧
        counted = results.foldl Stats.count { stats with total := (dataFiles d input).length } := by
  by_cases hfiles : dataFiles d input = []
  · rw [composeBatch] at h
    simp only [hfiles, if_true] at h
    cases h
    exact .inl ⟨hfiles, rfl, rfl⟩
  · cases hmade : d.makeDirectory outDir with
    | error e =>
        rw [composeBatch] at h
        simp only [if_neg hfiles, hmade] at h
        cases h
    | ok made =>
        by_cases hworkers : 1 ≤ b.workers
        · rw [composeBatch_eq hmade hworkers hfiles] at h
          simp only [Prod.mk.injEq] at h
          obtain ⟨hresults, hcounted, rfl⟩ := h
          generalize hrun : b.composeFiles outDir (dataFiles d input) made (dataFiles d input) = run
          rw [hrun] at hresults hcounted
          rcases gather_eq { stats with total := (dataFiles d input).length } run.1 with
            ⟨results, hall, -⟩ | ⟨e, -, hgather⟩
          · rw [hall, gather_map_ok] at hresults hcounted
            cases hresults
            exact .inr ⟨made, results, hfiles, rfl, hworkers, hrun.trans (Prod.ext hall rfl), rfl,
              hcounted.symm⟩
          · rw [hgather] at hresults
            cases hresults
        · have hidle : b.workers < 1 := by omega
          rw [composeBatch] at h
          simp only [if_neg hfiles, hmade, if_pos hidle] at h
          cases h

/-- Results come from a batch without files, or from one whose files all have a result. -/
theorem composeBatch_eq_ok {stats counted : Stats} {input : Path} {rs : List FileResult}
    (h : b.composeBatch stats d input outDir = (.ok rs, counted, after)) :
    rs = [] ∨ ∃ made results,
      b.composeFiles outDir (dataFiles d input) made (dataFiles d input) =
        (results.map .ok, after) ∧ rs.Perm results := by
  rcases composeBatch_cases h with ⟨-, hnone, -⟩ | ⟨made, results, -, -, -, hrun, rfl, -⟩
  · exact .inl hnone
  · exact .inr ⟨made, results, hrun, List.mergeSort_perm _ _⟩

end Batch
end Receipt.Command
