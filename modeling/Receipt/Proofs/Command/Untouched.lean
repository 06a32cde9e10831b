import Receipt.Host.Standard
import Receipt.Proofs.Command.Config
import Receipt.Proofs.Command.Places

/-!
# Files are written last

A build and the work on one file of a batch go through reading, composing and rendering before they
write, so each of their failures finds the files as they were. How a build may end is
`BuildOutcome`, as `Batch.Outcome` is for one file. Directories may have been made for an output
that cannot be written. What is written is one file: `Disk.WritesOnly`, `untouched_or_written`.
-/
namespace Receipt.Command

namespace Disk

/-- The file that a path leads to has the bytes, and no other file is new or changed. -/
def WritesOnly (d after : Disk) (p : Path) (bytes : List UInt8) : Prop :=
  ∃ there, after.locate p = .ok there ∧ after.get? there = some (.file bytes) ∧
    ∀ q ≠ there, KeptAt d after q

theorem WritesOnly.of_write {d made after : Disk} {p : Path} {bytes : List UInt8}
    (hadds : AddsDirectories d made) (h : made.write p bytes = .ok after) :
    WritesOnly d after p bytes := by
  obtain ⟨there, hthere, hfree, rfl⟩ := write_eq_ok h
  have hplace : there ≠ [] := ne_nil_of_get? hfree
  refine ⟨there, locate_put hfree bytes hthere, get?_put_self hplace _ made, fun q hq => ?_⟩
  rw [KeptAt, get?_put_of_ne hq]
  exact hadds q

end Disk

variable [Host]

omit [Host] in
theorem status_failed (errors : List String) (e : Failure) :
    (Report.failed errors e).ending.status = 1 := by
  rw [Report.failed]
  split <;> rfl

/-- How a build may end: what it reports, and the disk behind it. -/
inductive BuildOutcome (d : Disk) (o : BuildOptions) : Report → Disk → Prop
  | failed (errors : List String) (e : Failure) {after : Disk} (hadds : d.AddsDirectories after) :
      BuildOutcome d o (.failed errors e) after
  | printed {built : Built} {text : String} {errors : List String}
      (hbuilt : buildFiles d o = .ok built) (htext : render o.format built.elements = .ok text)
      (hout : o.out = none) : BuildOutcome d o ⟨[text], errors, .success⟩ d
  | written {built : Built} {text : String} {errors : List String} {p : Path} {made after : Disk}
      (hbuilt : buildFiles d o = .ok built) (htext : render o.format built.elements = .ok text)
      (hout : o.out = some p) (hadds : d.AddsDirectories made)
      (hwrite : made.write p (Text.Utf8.ofString text) = .ok after) :
      BuildOutcome d o ⟨[], errors, .success⟩ after

theorem outcome_deliver {d : Disk} {o : BuildOptions} {built : Built} {text : String}
    (hbuilt : buildFiles d o = .ok built) (htext : render o.format built.elements = .ok text)
    (count : Nat) (warnings : List String) :
    BuildOutcome d o (deliver d o.out count warnings text).1
      (deliver d o.out count warnings text).2 := by
  unfold deliver
  split
  · next hout => exact .printed hbuilt htext hout
  · next p hout =>
    split
    · next e _ => exact .failed warnings (.file e) (.refl d)
    · next made hmade =>
      obtain ⟨-, hadds⟩ := Disk.makeDirectory_eq_ok hmade
      split
      · next e _ => exact .failed warnings (.file e) hadds
      · next written hwrite => exact .written hbuilt htext hout hadds hwrite

theorem outcome_runBuild (d : Disk) (o : BuildOptions) :
    BuildOutcome d o (runBuild d o).1 (runBuild d o).2 := by
  unfold runBuild
  split
  · exact .failed _ _ (.refl d)
  · next built hbuilt =>
    dsimp only
    split
    · exact .failed _ _ (.refl d)
    · next text htext => exact outcome_deliver hbuilt htext _ _

/-- A build that fails, reported or not, leaves every file as it was. One that succeeds prints what
it built, or writes it to the file that was named and to no other. Work on one file of a batch
leaves the disk as it was if it fails, and writes what was built to the output that its result names
otherwise. -/
theorem untouched_or_written :
    (∀ d o report after, runRequest d (.build o) = (report, after) →
      report.ending.status = 1 ∧ d.AddsDirectories after ∨
        report.ending.status = 0 ∧
          ∃ built text, buildFiles d o = .ok built ∧ render o.format built.elements = .ok text ∧
            match o.out with
            | none => report.output = [text] ∧ after = d
            | some p => d.WritesOnly after p (Text.Utf8.ofString text)) ∧
      ∀ (b : Batch) d file outDir outName result after,
        b.composeFile d file outDir outName = (result, after) →
          match result with
          | .error _ => after = d
          | .ok r =>
            r.error.isSome ∧ r.output = none ∧ after = d ∨
              r.error = none ∧ ∃ data built text, loadData d file = .ok data ∧
                build b.settings b.registry b.name data = .ok built ∧
                render b.format built.elements = .ok text ∧
                ∃ out, r.output = some out ∧
                  d.WritesOnly after out (Text.Utf8.ofString text) := by
  constructor
  · intro d o report after hrun
    have hbuild : runBuild d o = (report, after) := hrun
    have houtcome : BuildOutcome d o report after := by
      have h := outcome_runBuild d o
      rwa [hbuild] at h
    cases houtcome with
    | failed errors e hadds => exact .inl ⟨status_failed errors e, hadds⟩
    | printed hbuilt htext hout =>
        rw [hout]
        exact .inr ⟨rfl, _, _, hbuilt, htext, rfl, rfl⟩
    | written hbuilt htext hout hadds hwrite =>
        rw [hout]
        exact .inr ⟨rfl, _, _, hbuilt, htext, .of_write hadds hwrite⟩
  · intro b d file outDir outName result after hcall
    -- Without a name of its own, the output is named as that of a single file.
    let name := outName.getD (Batch.outputName b.format [file] file)
    have hname : b.composeFile d file outDir (some name) = (result, after) := hcall
    have houtcome : b.Outcome d file outDir name result after := by
      have h := b.outcome_composeFile d file outDir name
      rwa [hname] at h
    cases houtcome with
    | written h =>
        obtain ⟨data, built, text, hdata, hbuilt, htext, hwrite, rfl⟩ := Batch.tryFile_eq_ok h
        have hwritten := Disk.WritesOnly.of_write (.refl d) hwrite
        exact .inr ⟨rfl, data, built, text, hdata, hbuilt, htext, _, rfl, hwritten⟩
    | reported => exact .inl ⟨rfl, rfl, rfl⟩
    | escaped => rfl

/-- A configuration that declares nothing, and data without members. -/
def blankDisk : Disk := [(["blank.json"], .file (Text.Utf8.ofString "\x7b\x7d"))]

def blankOptions : BuildOptions :=
  ⟨["blank.json"], ["blank.json"], "StoreCopy", .json, some (.ofText "new/receipt.json"), none,
    none⟩

def blankBatch : Batch := ⟨[], "StoreCopy", .standard, 1, .base64⟩

def blankBuilt : Built := ⟨[], ["Receipt config not found for key: StoreCopy"]⟩

theorem load_blank : Document.load blankDisk ["blank.json"] = .ok (.map []) := by
  have hname : Document.isJson ["blank.json"] = true := by decide +kernel
  have htext : Document.text (Text.Utf8.ofString "\x7b\x7d") = .ok "\x7b\x7d".toList := by
    decide +kernel
  exact load_json hname rfl htext rfl

theorem loadData_blank : loadData blankDisk ["blank.json"] = .ok (.map []) := by
  rw [loadData, load_blank]
  rfl

theorem buildFiles_blank : buildFiles blankDisk blankOptions = .ok blankBuilt := by
  have hregistry : loadRegistry blankDisk ["blank.json"] = .ok [] := loadRegistry_of_load load_blank
  have hsettings : loadSettings blankDisk none none = .ok .standard := rfl
  simp only [buildFiles, blankOptions, hsettings, hregistry, loadData_blank, bind, Except.bind]
  rfl

def lostResult : FileResult :=
  ⟨["blank.json"], none, 0, [], some "[Errno 2] No such file or directory: 'new/blank.b64'"⟩

/-- A batch does not make the directory of an output for one file. -/
theorem composeFile_blank :
    (blankBatch.composeFile blankDisk ["blank.json"] ["new"] none).1 = .ok lostResult := by
  have htry : blankBatch.tryFile blankDisk ["blank.json"] ["new"] "blank.b64" =
      .error (.file ⟨.missing, ["new", "blank.b64"]⟩) := by
    rw [Batch.tryFile, loadData_blank]
    rfl
  have hname : Batch.outputName blankBatch.format [["blank.json"]] ["blank.json"] =
      "blank.b64" := by
    decide +kernel
  rw [Batch.composeFile, Option.getD_none, hname, htry]
  rfl

omit [Host] in
/-- The directory of an output is made and the empty receipt written there. Where the directory of
an output is missing in a batch, the disk stays as it was. -/
theorem untouched_or_written_blank :
    letI := Host.standard 2025
    blankDisk.WritesOnly (runRequest blankDisk (.build blankOptions)).2 (.ofText "new/receipt.json")
        (Text.Utf8.ofString "[]") ∧
      (blankBatch.composeFile blankDisk ["blank.json"] ["new"] none).1 = .ok lostResult ∧
      (blankBatch.composeFile blankDisk ["blank.json"] ["new"] none).2 = blankDisk := by
  let host := Host.standard 2025
  have hstatus : (runRequest blankDisk (.build blankOptions)).1.ending.status ≠ 1 := by
    show (runBuild blankDisk blankOptions).1.ending.status ≠ 1
    rw [runBuild, buildFiles_blank]
    exact Nat.zero_ne_one
  refine ⟨?_, composeFile_blank, ?_⟩
  · rcases untouched_or_written.1 blankDisk blankOptions _ _ rfl with
      ⟨hfailed, -⟩ | ⟨-, built, text, hbuilt, htext, hwritten⟩
    · exact (hstatus hfailed).elim
    · rw [buildFiles_blank] at hbuilt
      cases hbuilt
      cases htext
      exact hwritten
  · have hcall : blankBatch.composeFile blankDisk ["blank.json"] ["new"] none = (.ok lostResult,
        (blankBatch.composeFile blankDisk ["blank.json"] ["new"] none).2) :=
      Prod.ext composeFile_blank rfl
    rcases untouched_or_written.2 _ _ _ _ _ _ _ hcall with ⟨-, -, hsame⟩ | ⟨herror, -⟩
    · exact hsame
    · cases herror

end Receipt.Command
