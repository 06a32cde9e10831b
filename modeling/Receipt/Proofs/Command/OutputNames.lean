import Mathlib.Data.List.Nodup
import Mathlib.Data.List.Perm.Subperm
import Receipt.Host.Standard
import Receipt.Proofs.Command.Batch

/-!
# The names of the outputs of a batch

An output is named after the stem of its file, and after the whole name if other files have that
stem. The two rules meet in one case, `Clash`: the name of a file that shares its stem is the stem
of a file that does not. Without a clash the names differ, and every output is left as it was
written, `outputs_kept`.
-/
namespace Receipt.Command

namespace Disk

/-- No path has two entries. -/
def IsMap (d : Disk) : Prop := (d.map Prod.fst).Nodup

theorem nodup_list {d : Disk} (h : d.IsMap) (p : Path) : (d.list p).Nodup := by
  unfold list
  split
  · next there _ _ =>
    let last (q : Path) := if q ≠ [] ∧ q.dropLast = there then q.getLast? else none
    have hpaths : ((d.map Prod.fst).filterMap last).Nodup := by
      refine h.filterMap fun q q' name hq hq' => ?_
      simp only [last, Option.mem_def, Option.ite_none_right_eq_some] at hq hq'
      obtain ⟨⟨-, hdir⟩, hname⟩ := hq
      obtain ⟨⟨-, hdir'⟩, hname'⟩ := hq'
      rw [← List.dropLast_append_getLast? name hname, ← List.dropLast_append_getLast? name hname',
        hdir, hdir']
    rw [List.filterMap_map] at hpaths
    exact hpaths
  · exact List.nodup_nil

end Disk

namespace Batch

variable {files : List Path} {p q : Path}

/-- The path and another of the files have one stem. -/
def SharesStem (files : List Path) (p : Path) : Prop := 1 < files.countP fun q => q.stem = p.stem

theorem sharesStem_of_ne (hp : p ∈ files) (hq : q ∈ files) (hne : p ≠ q) (hstem : p.stem = q.stem) :
    SharesStem files p := by
  have hpair : [p, q] ⊆ files.filter fun r => r.stem = p.stem := by
    intro r hr
    rw [List.mem_pair] at hr
    rcases hr with rfl | rfl
    · exact List.mem_filter.mpr ⟨hp, decide_eq_true rfl⟩
    · exact List.mem_filter.mpr ⟨hq, decide_eq_true hstem.symm⟩
  have hnodup : [p, q].Nodup := List.nodup_cons.mpr ⟨by simpa using hne, List.nodup_singleton q⟩
  have hlength := (List.subperm_of_subset hnodup hpair).length_le
  rw [SharesStem, List.countP_eq_length_filter]
  exact hlength

theorem outputName_of_shares (format : Format) (h : SharesStem files p) :
    outputName format files p = p.name ++ outputSuffix format := by
  unfold SharesStem at h
  rw [outputName, if_pos h]

theorem outputName_of_not_shares (format : Format) (h : ¬ SharesStem files p) :
    outputName format files p = p.stem ++ outputSuffix format := by
  unfold SharesStem at h
  rw [outputName, if_neg h]

theorem outputName_ne_up (format : Format) (files : List Path) (p : Path) :
    outputName format files p ≠ ".." := by
  intro h
  have hlength := congrArg String.length h
  rw [outputName, String.length_append] at hlength
  have hsuffix : 4 ≤ (outputSuffix format).length := by
    cases format <;> decide
  have hup : "..".length = 2 := rfl
  omega

/-- The name that one file is known by is the stem that another is known by. -/
def Clash (files : List Path) (p q : Path) : Prop :=
  SharesStem files p ∧ ¬ SharesStem files q ∧ p.name = q.stem

def ClashFree (files : List Path) : Prop := ∀ p ∈ files, ∀ q ∈ files, ¬ Clash files p q

section OneDirectory

variable (hdir : ∀ p ∈ files, ∀ q ∈ files, p.name = q.name → p = q)

include hdir in
/-- Two files of a directory have one output exactly when they clash. -/
theorem outputName_eq_iff (format : Format) (hp : p ∈ files) (hq : q ∈ files) (hne : p ≠ q) :
    outputName format files p = outputName format files q ↔ Clash files p q ∨ Clash files q p := by
  by_cases hsp : SharesStem files p <;> by_cases hsq : SharesStem files q
  · rw [outputName_of_shares format hsp, outputName_of_shares format hsq, String.append_left_inj]
    constructor
    · intro hname
      exact absurd (hdir p hp q hq hname) hne
    · rintro (h | h)
      · exact absurd hsq h.2.1
      · exact absurd hsp h.2.1
  · rw [outputName_of_shares format hsp, outputName_of_not_shares format hsq, String.append_left_inj]
    constructor
    · intro hname
      exact .inl ⟨hsp, hsq, hname⟩
    · rintro (h | h)
      · exact h.2.2
      · exact absurd h.1 hsq
  · rw [outputName_of_not_shares format hsp, outputName_of_shares format hsq, String.append_left_inj]
    constructor
    · intro hname
      exact .inr ⟨hsq, hsp, hname.symm⟩
    · rintro (h | h)
      · exact absurd h.1 hsp
      · exact h.2.2.symm
  · rw [outputName_of_not_shares format hsp, outputName_of_not_shares format hsq, String.append_left_inj]
    constructor
    · intro hstem
      exact absurd (sharesStem_of_ne hp hq hne hstem) hsp
    · rintro (h | h)
      · exact absurd h.1 hsp
      · exact absurd h.1 hsq

include hdir in
theorem nodup_outputNames_iff (format : Format) (hfiles : files.Nodup) :
    (outputNames format files).Nodup ↔ ClashFree files := by
  rw [outputNames, List.nodup_map_iff_inj_on hfiles]
  constructor
  · intro hinj p hp q hq hclash
    have hne : p ≠ q := by
      rintro rfl
      exact hclash.2.1 hclash.1
    have hname := (outputName_eq_iff hdir format hp hq hne).mpr (.inl hclash)
    exact hne (hinj p hp q hq hname)
  · intro hfree p hp q hq hname
    by_contra hne
    rcases (outputName_eq_iff hdir format hp hq hne).mp hname with hclash | hclash
    · exact hfree p hp q hq hclash
    · exact hfree q hq p hp hclash

end OneDirectory

theorem nodup_dataFiles {d : Disk} (h : d.IsMap) (input : Path) : (dataFiles d input).Nodup := by
  have hnames : (((d.list input).filter isDataName).mergeSort
      fun a b => decide (a ≤ b)).Nodup :=
    (List.mergeSort_perm _ _).nodup_iff.mpr ((Disk.nodup_list h input).filter _)
  refine hnames.map fun a b hab => ?_
  exact (List.cons.inj (List.append_cancel_left hab)).1

theorem eq_of_name_dataFiles (d : Disk) (input : Path) :
    ∀ p ∈ dataFiles d input, ∀ q ∈ dataFiles d input, p.name = q.name → p = q := by
  intro p hp q hq hname
  obtain ⟨a, -, rfl⟩ := List.mem_map.mp hp
  obtain ⟨c, -, rfl⟩ := List.mem_map.mp hq
  have hlast : a = c := by simpa [Path.name] using hname
  rw [hlast]

section Run

variable [Host] {b : Batch} {outDir : Path} {d : Disk}

/-- A file of the output directory is as before if none of the files is written under its name. -/
theorem read_composeFiles_of_ne {other : String} {content : List UInt8} (hother : other ≠ "..")
    {rest : List Path} (hne : ∀ p ∈ rest, outputName b.format files p ≠ other)
    (hread : d.read (outDir ++ [other]) = .ok content) :
    (b.composeFiles outDir files d rest).2.read (outDir ++ [other]) = .ok content := by
  induction rest generalizing d with
  | nil => exact hread
  | cons file rest ih =>
      rw [composeFiles_cons]
      have hfile : outputName b.format files file ≠ other := hne file List.mem_cons_self
      have hstep := (outcome_composeFile b d file outDir (outputName b.format files file)).read_of_ne
        (outputName_ne_up _ _ _) hother hfile hread
      exact ih (fun p hp => hne p (List.mem_cons_of_mem _ hp)) hstep

/-- What was written for a result stands on the disk. -/
def Kept (b : Batch) (outDir : Path) (files : List Path) (after : Disk) (r : FileResult) : Prop :=
  ∀ out, r.output = some out → ∃ before written content,
    b.tryFile before r.file outDir (outputName b.format files r.file) = .ok (r, written) ∧
      written.read out = .ok content ∧ after.read out = .ok content

/-- With names that differ, what is written first is not overwritten by what is written later. -/
theorem kept_composeFiles {rest : List Path}
    (hnames : (rest.map (outputName b.format files)).Nodup) {r : FileResult}
    (hr : .ok r ∈ (b.composeFiles outDir files d rest).1) :
    b.Kept outDir files (b.composeFiles outDir files d rest).2 r := by
  induction rest generalizing d with
  | nil => cases hr
  | cons file rest ih =>
      rw [List.map_cons, List.nodup_cons] at hnames
      rw [composeFiles_cons] at hr ⊢
      rcases List.mem_cons.mp hr with hfirst | hlater
      · have houtcome := outcome_composeFile b d file outDir (outputName b.format files file)
        rw [← hfirst] at houtcome
        intro out hout
        obtain ⟨rfl, htry, content, hread⟩ := houtcome.of_output hout
        have hother : ∀ p ∈ rest, outputName b.format files p ≠ outputName b.format files file :=
          fun p hp heq => hnames.1 (heq ▸ List.mem_map_of_mem hp)
        rw [houtcome.file_eq]
        exact ⟨d, _, content, htry, hread,
          read_composeFiles_of_ne (outputName_ne_up _ _ _) hother hread⟩
      · exact ih hnames.2 hlater

/-- The outputs of a run stand under the names of its files in their order. -/
theorem outputs_sublist {rest : List Path} {results : List FileResult}
    (h : List.Forall₂ (b.Produced outDir files) rest (results.map .ok)) :
    (results.filterMap FileResult.output).Sublist
      (rest.map fun p => outDir ++ [outputName b.format files p]) := by
  induction results generalizing rest with
  | nil =>
      cases h
      exact List.Sublist.refl _
  | cons r results ih =>
      cases h with
      | cons hfile hrest =>
          obtain ⟨before, after, houtcome⟩ := hfile
          have hmore := ih hrest
          cases hout : r.output with
          | none =>
              rw [List.filterMap_cons_none hout]
              exact hmore.cons _
          | some out =>
              obtain ⟨rfl, -, -⟩ := houtcome.of_output hout
              rw [List.filterMap_cons_some hout]
              exact hmore.cons_cons _

end Run

/-- The outputs of the files of a directory have different names exactly when no two files clash.
A batch whose files do not clash then writes a file of its own for each one that is built, and that
file holds what was written for it when the batch is over. -/
theorem outputs_distinct_iff [Host] (b : Batch) {d : Disk} (h : d.IsMap) (input : Path) :
    ((outputNames b.format (dataFiles d input)).Nodup ↔ ClashFree (dataFiles d input)) ∧
      (ClashFree (dataFiles d input) → ∀ stats outDir rs counted after,
        b.composeBatch stats d input outDir = (.ok rs, counted, after) →
          (rs.filterMap FileResult.output).Nodup ∧
            ∀ r ∈ rs, b.Kept outDir (dataFiles d input) after r) := by
  have hiff := nodup_outputNames_iff (eq_of_name_dataFiles d input) b.format
    (nodup_dataFiles h input)
  refine ⟨hiff, fun hfree stats outDir rs counted after hbatch => ?_⟩
  have hnames := hiff.mpr hfree
  rcases composeBatch_eq_ok hbatch with rfl | ⟨made, results, hrun, hperm⟩
  · exact ⟨List.nodup_nil, fun r hr => absurd hr List.not_mem_nil⟩
  · constructor
    · have hproduced := forall₂_composeFiles b outDir (dataFiles d input) made (dataFiles d input)
      rw [hrun] at hproduced
      have hpaths : ((dataFiles d input).map fun p =>
          outDir ++ [outputName b.format (dataFiles d input) p]).Nodup := by
        have hinj : Function.Injective fun name : String => outDir ++ [name] :=
          fun a c hac => (List.cons.inj (List.append_cancel_left hac)).1
        have hmap := hnames.map hinj
        rw [outputNames, List.map_map] at hmap
        exact hmap
      exact (hperm.filterMap _).nodup_iff.mpr ((outputs_sublist hproduced).nodup hpaths)
    · intro r hr
      have hmem : .ok r ∈ (b.composeFiles outDir (dataFiles d input) made (dataFiles d input)).1 := by
        rw [hrun]
        exact List.mem_map_of_mem (hperm.mem_iff.mp hr)
      have hkept := kept_composeFiles hnames hmem
      rw [hrun] at hkept
      exact hkept

/-- Two files of one stem in a directory. -/
def sameStemDisk : Disk :=
  [(["in"], .directory), (["in", "a.json"], .file (Text.Utf8.ofString "{}")),
    (["in", "a.yml"], .file (Text.Utf8.ofString "{}"))]

/-- A batch of a section that is not declared, which gives no elements for any file. -/
def undeclaredBatch : Batch := ⟨[], "S", Settings.standard, 4, .json⟩

theorem dataFiles_sameStemDisk :
    dataFiles sameStemDisk ["in"] = [["in", "a.json"], ["in", "a.yml"]] := by
  have hlist : (sameStemDisk.list ["in"]).filter isDataName = ["a.json", "a.yml"] := by
    decide +kernel
  rw [dataFiles, hlist, List.mergeSort_of_pairwise (by decide +kernel)]
  rfl

theorem sameStemDisk_isMap : sameStemDisk.IsMap := by
  unfold Disk.IsMap
  decide +kernel

theorem composeBatch_sameStemDisk :
    letI := Host.standard 2025
    ∃ rs after, undeclaredBatch.composeBatch .zero sameStemDisk ["in"] ["out"] =
      (.ok rs, ⟨2, 2, 0, 2⟩, after) := by
  let host := Host.standard 2025
  have hrun : (undeclaredBatch.composeBatch .zero sameStemDisk ["in"] ["out"]).1.isOk = true ∧
      (undeclaredBatch.composeBatch .zero sameStemDisk ["in"] ["out"]).2.1 = ⟨2, 2, 0, 2⟩ := by
    rw [composeBatch, dataFiles_sameStemDisk]
    decide +kernel
  generalize undeclaredBatch.composeBatch .zero sameStemDisk ["in"] ["out"] = run at hrun
  obtain ⟨results, counted, after⟩ := run
  obtain ⟨hok, rfl⟩ := hrun
  cases results with
  | error e => cases hok
  | ok rs => exact ⟨rs, after, rfl⟩

theorem outputs_distinct_same_stem :
    letI := Host.standard 2025
    let files := dataFiles sameStemDisk ["in"]
    sameStemDisk.IsMap ∧ ClashFree files ∧ (outputNames .json files).Nodup ∧
      ∃ rs counted after, undeclaredBatch.composeBatch .zero sameStemDisk ["in"] ["out"] =
          (.ok rs, counted, after) ∧ counted.composed = 2 ∧
        (rs.filterMap FileResult.output).Nodup ∧
          ∀ r ∈ rs, undeclaredBatch.Kept ["out"] files after r := by
  let host := Host.standard 2025
  intro files
  have hfree : ClashFree files := by
    simp only [files, dataFiles_sameStemDisk, ClashFree, Clash, SharesStem]
    decide +kernel
  obtain ⟨hiff, hkept⟩ := outputs_distinct_iff undeclaredBatch sameStemDisk_isMap ["in"]
  obtain ⟨rs, after, hrun⟩ := composeBatch_sameStemDisk
  exact ⟨sameStemDisk_isMap, hfree, hiff.mpr hfree, rs, _, after, hrun, rfl,
    hkept hfree _ _ _ _ _ hrun⟩

/-- Two of these files share their stem, and the third has the name of one of them for its stem. -/
def doubledFiles : List Path :=
  ["a.json", "a.json.yml", "a.yml"].map fun n => ["in", n]

theorem doubledFiles_outputs :
    doubledFiles.Nodup ∧ (∀ p ∈ doubledFiles, isDataName p.name = true) ∧
      outputNames .json doubledFiles = ["a.json.json", "a.json.json", "a.yml.json"] ∧
      ¬ (outputNames .json doubledFiles).Nodup := by
  decide +kernel

end Batch
end Receipt.Command
