import Mathlib.Control.Monad.Basic
import Receipt.Command.Run
import Receipt.Host.Standard
import Receipt.Proofs.Layout.Fault

/-!
# A configuration that cannot be used

Three commands read a registry from a file. One that cannot be read ends them before anything is
printed or written, and what they tell of it is decided by the first fault at its places:
`runRequest_config`. A fault of a section or of a list of rows is not reported and ends the command
abruptly. The other faults are reported.
-/
namespace Receipt.Command
open Layout

variable [Host]

/-- A file that holds JSON and is named so. -/
theorem load_json {d : Disk} {p : Path} {bytes : List UInt8} {cs : List Char} {v : Value}
    (hname : Document.isJson p = true) (hread : d.read p = .ok bytes)
    (htext : Document.text bytes = .ok cs) (hjson : Json.read? cs = .ok v) :
    Document.load d p = .ok v := by
  rw [Document.load, hread]
  simp only [hname, if_true, Document.readJson, htext, hjson]
  rfl

/-- A file that is named as JSON never fails in a way that is not reported. -/
theorem documentReported_of_isJson {d : Disk} {p : Path} {e : DocumentError}
    (hname : Document.isJson p = true) (h : Document.load d p = .error e) :
    Failure.documentReported e = true := by
  rw [Document.load] at h
  split at h
  · cases h
    rfl
  · rw [if_pos hname, Document.readJson] at h
    split at h
    · cases h
      rfl
    · obtain ⟨e', -, rfl⟩ := mapError_eq_error h
      rfl

/-- What a file declares that holds a value: one that counts as empty declares nothing. -/
def declared (v : Value) : Value := if v.truthy then v else .map []

namespace Request

/-- The file that the registry is read from. -/
def config? : Request → Option Path
  | .build o => some o.config
  | .sections config => some config
  | .batch o => some o.config
  | .decode _ => none

/-- The settings, which are read before the registry. -/
def settings (d : Disk) : Request → Except Failure Settings
  | .build o => loadSettings d o.settings o.emptyValues
  | .batch o => loadSettings d o.settings none
  | .sections _ | .decode _ => .ok Settings.standard

end Request

/-- The end of a command by a fault of its configuration. -/
def unusable (e : Layout.Error) : Report :=
  match e with
  | .registryNotMap | .rowNotMap _ | .unwritable .tooLong =>
    ⟨[], ["Error: " ++ e.message], .failure⟩
  | .sectionNotMap | .rowsNotList | .unwritable .notJson => ⟨[], [], .abrupt (.layout e)⟩

omit [Host] in
theorem failed_layout (e : Layout.Error) : Report.failed [] (.layout e) = unusable e := by
  cases e with
  | unwritable e => cases e <;> rfl
  | _ => rfl

omit [Host] in
/-- A fault is reported unless it is one of a section or of a list of rows. -/
theorem reported_iff_of_fault? {place : Place} {e : Layout.Error} (h : place.fault? = some e) :
    (Failure.layout e).reported = true ↔ ∀ v, place ≠ .layout v ∧ place ≠ .rows v := by
  cases place with
  | registry v =>
      obtain rfl : e = .registryNotMap := by
        cases v <;> cases h <;> rfl
      exact iff_of_true rfl fun _ => by simp
  | layout v =>
      obtain rfl : e = .sectionNotMap := by
        unfold Place.fault? at h
        split at h <;> simp_all
      exact iff_of_false Bool.false_ne_true fun hno => (hno v).1 rfl
  | rows v =>
      obtain rfl : e = .rowsNotList := by
        unfold Place.fault? at h
        split at h <;> simp_all
      exact iff_of_false Bool.false_ne_true fun hno => (hno v).2 rfl
  | row v =>
      obtain ⟨kind, rfl⟩ : ∃ kind, e = .rowNotMap kind := by
        cases v <;> cases h <;> exact ⟨_, rfl⟩
      exact iff_of_true rfl fun _ => by simp
  | name v | undeclared key =>
      obtain rfl : e = .unwritable .tooLong := by
        unfold Place.fault? at h
        split at h <;> simp_all
      exact iff_of_true rfl fun _ => by simp

section Load

variable {d : Disk} {config : Path}

theorem loadRegistry_of_load {raw : Value} (h : Document.load d config = .ok raw) :
    loadRegistry d config = (Registry.ofValue (declared raw)).mapError .layout := by
  rw [loadRegistry, h]
  rfl

theorem loadRegistry_of_load_error {e : DocumentError} (h : Document.load d config = .error e) :
    loadRegistry d config = .error (.document e) := by
  rw [loadRegistry, h]
  rfl

/-- A command ends with the failure of its registry, and leaves the disk as it was. -/
theorem runRequest_of_loadRegistry {request : Request} {settings : Settings} {e : Failure}
    (hconfig : request.config? = some config) (hsettings : request.settings d = .ok settings)
    (h : loadRegistry d config = .error e) : runRequest d request = (.failed [] e, d) := by
  cases request with
  | build o =>
      cases hconfig
      have hfiles : buildFiles d o = .error e := by
        rw [buildFiles, show loadSettings d o.settings o.emptyValues = .ok settings from hsettings, h]
        rfl
      rw [runRequest, runBuild, hfiles]
  | sections config =>
      cases hconfig
      rw [runRequest, runSections, h]
  | batch o =>
      cases hconfig
      have hfiles : batchFiles d o = .error e := by
        rw [batchFiles, show loadSettings d o.settings none = .ok settings from hsettings, h]
        rfl
      rw [runRequest, runBatch, hfiles]
  | decode input => cases hconfig

end Load

/-- A registry is read from a value if no place in the value has a fault, and fails as the first
fault says; the faults that are reported are those of registries and of rows. A command whose
settings can be read has a registry if its file holds a value without faults. Otherwise it ends by
the first fault of the value, or reports why the file holds none, and leaves the disk as it was. -/
theorem runRequest_config (d : Disk) {request : Request} {config : Path} {settings : Settings}
    (hconfig : request.config? = some config) (hsettings : request.settings d = .ok settings) :
    (∀ raw : Value, failure? (Registry.ofValue raw) = firstFault (Place.ofRegistry raw)) ∧
      (∀ (place : Place) (e : Layout.Error), place.fault? = some e →
        ((Failure.layout e).reported = true ↔ ∀ v, place ≠ .layout v ∧ place ≠ .rows v)) ∧
      (∀ e, Document.load d config = .error e →
        Document.isJson config = true ∨ Failure.documentReported e = true →
        runRequest d request = (⟨[], ["Error: " ++ e.message], .failure⟩, d)) ∧
      ∀ raw, Document.load d config = .ok raw →
        match firstFault (Place.ofRegistry (declared raw)) with
        | none => ∃ registry, loadRegistry d config = .ok registry
        | some e => runRequest d request = (unusable e, d) := by
  refine ⟨Registry.failure?_ofValue, fun _ _ => reported_iff_of_fault?, ?_, ?_⟩
  · intro e h hreported
    have hdocument : (Failure.document e).reported = true :=
      hreported.elim (fun hname => documentReported_of_isJson hname h) id
    rw [runRequest_of_loadRegistry hconfig hsettings (loadRegistry_of_load_error h), Report.failed,
      if_pos hdocument]
    rfl
  · intro raw h
    have hload := loadRegistry_of_load h
    rw [← Registry.failure?_ofValue]
    cases hread : Registry.ofValue (declared raw) with
    | ok registry =>
        rw [hread] at hload
        exact ⟨registry, hload⟩
    | error e =>
        rw [hread] at hload
        show runRequest d request = (unusable e, d)
        rw [← failed_layout]
        exact runRequest_of_loadRegistry hconfig hsettings hload

/-- A section that is a number. -/
def numberText : String := "\x7b\"S\": 5\x7d"

def numberDisk : Disk := [(["shop.json"], .file (Text.Utf8.ofString numberText))]

theorem load_numberDisk :
    Document.load numberDisk ["shop.json"] = .ok (.map [(.text "S", .int 5)]) := by
  have hname : Document.isJson ["shop.json"] = true := by decide +kernel
  have htext : Document.text (Text.Utf8.ofString numberText) = .ok numberText.toList := by
    decide +kernel
  exact load_json hname rfl htext rfl

omit [Host] in
theorem runRequest_config_number :
    letI := Host.standard 2025
    runRequest numberDisk (.sections ["shop.json"]) =
      (⟨[], [], .abrupt (.layout .sectionNotMap)⟩, numberDisk) := by
  let host := Host.standard 2025
  exact (runRequest_config numberDisk rfl rfl).2.2.2 _ load_numberDisk

omit [Host] in
/-- Not every registry that cannot be read from JSON is reported. -/
theorem exists_config_abrupt :
    letI := Host.standard 2025
    ¬ ∀ (d : Disk) (config : Path) (raw : Value) (e : Failure), Document.isJson config = true →
      Document.load d config = .ok raw → loadRegistry d config = .error e →
        ∃ message, runRequest d (.sections config) =
          (⟨[], ["Error: " ++ message], .failure⟩, d) := by
  let host := Host.standard 2025
  intro hall
  have hload : loadRegistry numberDisk ["shop.json"] = .error (.layout .sectionNotMap) :=
    loadRegistry_of_load load_numberDisk
  obtain ⟨message, hrun⟩ := hall _ _ _ _ (by decide +kernel) load_numberDisk hload
  rw [runRequest_of_loadRegistry rfl rfl hload] at hrun
  cases hrun

end Receipt.Command
