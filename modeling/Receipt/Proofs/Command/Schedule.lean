import Mathlib.Algebra.Ring.Nat
import Mathlib.Data.String.Basic
import Mathlib.Logic.Relation
import Receipt.Proofs.Command.Failure
import Receipt.Proofs.Command.Places

/-!
# A batch under any schedule

The files of a batch are worked on at the same time, each by a task of its own. A task reads its
file, opens its output, which empties it, and writes it; tasks share the disk and may be anywhere
between these steps while others take theirs. Results are counted in the order in which they are
picked up. `Step` is one step of any task, and `Gives` is what a batch gives under some schedule.

What all schedules have in common is carried by `Upheld`: a property of each task that its own steps
and those of the others keep.
-/
namespace Receipt.Command

namespace FileResult

/-- The result of a file that failed. -/
def failed (file : Path) (e : Failure) : FileResult := ⟨file, none, 0, [], some e.message⟩

/-- The result of a file whose elements are in an output. -/
def written (file out : Path) (built : Built) : FileResult :=
  ⟨file, some out, built.elements.length, built.warnings, none⟩

/-- The result has a failure exactly if it has no output. -/
def Agrees (r : FileResult) : Prop := r.failure?.isSome = r.output.isNone

theorem agrees_failed (file : Path) {e : Failure} (h : e.reported = true) :
    (failed file e).Agrees := by
  have hmessage : decide (e.message ≠ "") = true := decide_eq_true (e.message_ne_empty h)
  rw [Agrees, failure?, failed, Option.filter_some, if_pos hmessage]
  rfl

theorem agrees_written (file out : Path) (built : Built) : (written file out built).Agrees := rfl

end FileResult

namespace Batch

section Tasks

variable [Host]

/-- What is done for a file before its output is opened: the text is made that goes there. -/
def prepare (b : Batch) (d : Disk) (file : Path) : Except Failure (Built × String) := do
  let data ← loadData d file
  let built ← (build b.settings b.registry b.name data).mapError .composition
  let text ← render b.format built.elements
  return (built, text)

theorem tryFile_eq (b : Batch) (d : Disk) (file outDir : Path) (name : String) :
    b.tryFile d file outDir name = (b.prepare d file).bind fun made =>
      ((d.write (outDir ++ [name]) (Text.Utf8.ofString made.2)).mapError .file).map fun after =>
        (.written file (outDir ++ [name]) made.1, after) := by
  simp only [tryFile, prepare, bind, Except.bind, pure, Except.pure]
  cases loadData d file with
  | error e => rfl
  | ok data =>
      dsimp only
      cases (build b.settings b.registry b.name data).mapError Failure.composition with
      | error e => rfl
      | ok built =>
          dsimp only
          cases render b.format built.elements with
          | error e => rfl
          | ok text =>
              dsimp only
              cases (d.write (outDir ++ [name]) (Text.Utf8.ofString text)).mapError
                Failure.file <;> rfl

/-- Where the task of a file is. -/
inductive Phase where
  | waiting
  | started
  | prepared (built : Built) (text : String)
  /-- The output is open at its place, and empty. -/
  | opened (there : Path) (built : Built) (text : String)
  | finished (r : FileResult)
  /-- The result was picked up and counted. -/
  | collected

namespace Phase

/-- A worker is busy with the task. -/
def isRunning : Phase → Bool
  | .started | .prepared .. | .opened .. => true
  | .waiting | .finished _ | .collected => false

def isCollected : Phase → Bool
  | .collected => true
  | _ => false

end Phase

/-- A step of the task of one file, on the disk that all tasks share. -/
inductive Works (b : Batch) (file out : Path) : Disk → Phase → Disk → Phase → Prop
  | prepare {d : Disk} {built : Built} {text : String} (h : b.prepare d file = .ok (built, text)) :
      Works b file out d .started d (.prepared built text)
  | fail {d : Disk} {e : Failure} (h : b.prepare d file = .error e) (hreported : e.reported = true) :
      Works b file out d .started d (.finished (.failed file e))
  | openOutput {d : Disk} {built : Built} {text : String} {there : Path} (h : d.locate out = .ok there)
      (hfree : d.get? there ≠ some .directory) :
      Works b file out d (.prepared built text) (d.put there (.file [])) (.opened there built text)
  | refuse {d : Disk} {built : Built} {text : String} {e : FileError}
      (h : d.write out [] = .error e) :
      Works b file out d (.prepared built text) d (.finished (.failed file (.file e)))
  | write {d : Disk} {built : Built} {text : String} {there : Path} :
      Works b file out d (.opened there built text)
        (d.put there (.file (Text.Utf8.ofString text))) (.finished (.written file out built))

/-- A batch at work: the disk, the tasks of the files, and what was counted so far. -/
structure Pool where
  disk : Disk
  tasks : List (Path × Phase)
  results : List FileResult
  stats : Stats

/-- The output of a file among others. -/
def outputPath (b : Batch) (outDir : Path) (files : List Path) (file : Path) : Path :=
  outDir ++ [outputName b.format files file]

/-- A step of a batch: a free worker starts a task, a task takes a step of its own, or the result
of one is picked up. Which of the tasks that wait is started is left open. -/
inductive Step (b : Batch) (outDir : Path) (files : List Path) : Pool → Pool → Prop
  | start {d : Disk} {front back : List (Path × Phase)} {file : Path} {rs : List FileResult}
      {stats : Stats} (h : ((front ++ back).countP (·.2.isRunning) : Int) < b.workers) :
      Step b outDir files ⟨d, front ++ (file, .waiting) :: back, rs, stats⟩
        ⟨d, front ++ (file, .started) :: back, rs, stats⟩
  | work {d d' : Disk} {front back : List (Path × Phase)} {file : Path} {phase phase' : Phase}
      {rs : List FileResult} {stats : Stats}
      (h : b.Works file (b.outputPath outDir files file) d phase d' phase') :
      Step b outDir files ⟨d, front ++ (file, phase) :: back, rs, stats⟩
        ⟨d', front ++ (file, phase') :: back, rs, stats⟩
  | collect {d : Disk} {front back : List (Path × Phase)} {file : Path} {r : FileResult}
      {rs : List FileResult} {stats : Stats} :
      Step b outDir files ⟨d, front ++ (file, .finished r) :: back, rs, stats⟩
        ⟨d, front ++ (file, .collected) :: back, rs ++ [r], stats.count r⟩

/-- Any number of steps. -/
def Steps (b : Batch) (outDir : Path) (files : List Path) : Pool → Pool → Prop :=
  Relation.ReflTransGen (b.Step outDir files)

namespace Pool

def start (d : Disk) (files : List Path) (stats : Stats) : Pool :=
  ⟨d, files.map (·, .waiting), [], stats⟩

/-- All results were picked up. -/
def Ended (s : Pool) : Prop := ∀ task ∈ s.tasks, task.2 = .collected

/-- The files whose results are still to come. -/
def remaining (tasks : List (Path × Phase)) : List Path :=
  (tasks.filter fun task => !task.2.isCollected).map Prod.fst

end Pool

/-- What a batch gives under some schedule. -/
inductive Gives (b : Batch) (stats : Stats) (d : Disk) (input outDir : Path) :
    List FileResult → Stats → Prop
  | empty (h : dataFiles d input = []) : Gives b stats d input outDir [] { stats with total := 0 }
  | ended {made : Disk} {s : Pool} (hfiles : dataFiles d input ≠ [])
      (hmade : d.makeDirectory outDir = .ok made)
      (h : b.Steps outDir (dataFiles d input) (.start made (dataFiles d input)
        { stats with total := (dataFiles d input).length }) s)
      (hended : s.Ended) : Gives b stats d input outDir (sorted s.results) s.stats

/-- A property of the task of each file, on the disk that there is, that the steps of the task and
those of the others keep. It holds of all results that are told. -/
structure Upheld (b : Batch) (outDir : Path) (files : List Path) (P : Disk → Path → Phase → Prop)
    (Q : FileResult → Prop) : Prop where
  start {d : Disk} {file : Path} : P d file .waiting → P d file .started
  own {d d' : Disk} {file : Path} {phase phase' : Phase} : file ∈ files → P d file phase →
    b.Works file (b.outputPath outDir files file) d phase d' phase' → P d' file phase'
  other {d d' : Disk} {file file' : Path} {phase phase' phase'' : Phase} : file ∈ files →
    file' ∈ files → file' ≠ file → P d file phase →
    b.Works file (b.outputPath outDir files file) d phase d' phase' → P d file' phase'' →
    P d' file' phase''
  told {d : Disk} {file : Path} {r : FileResult} : P d file (.finished r) → r.file = file ∧ Q r
  collected {d : Disk} {file : Path} {r : FileResult} : P d file (.finished r) → P d file .collected

/-- The tasks are those of the files, each with the property, and each result is that of a file
whose result is no longer to come. -/
structure Sound (files : List Path) (P : Disk → Path → Phase → Prop) (Q : FileResult → Prop)
    (stats : Stats) (s : Pool) : Prop where
  files_eq : s.tasks.map Prod.fst = files
  phases : ∀ task ∈ s.tasks, P s.disk task.1 task.2
  perm : (s.results.map FileResult.file ++ Pool.remaining s.tasks).Perm files
  told : ∀ r ∈ s.results, Q r
  stats_eq : s.stats = s.results.foldl Stats.count stats

theorem Works.not_collected {b : Batch} {file out : Path} {d d' : Disk} {phase phase' : Phase}
    (h : b.Works file out d phase d' phase') :
    phase.isCollected = false ∧ phase'.isCollected = false := by
  cases h <;> exact ⟨rfl, rfl⟩

end Tasks

namespace Pool

theorem remaining_waiting (files : List Path) : remaining (files.map (·, .waiting)) = files := by
  induction files with
  | nil => rfl
  | cons file files ih => exact congrArg (file :: ·) ih

theorem remaining_append_cons (front back : List (Path × Phase)) (task : Path × Phase) :
    remaining (front ++ task :: back) =
      remaining front ++ (if task.2.isCollected then [] else [task.1]) ++ remaining back := by
  unfold remaining
  rw [List.filter_append, List.filter_cons, List.map_append]
  cases task.2.isCollected <;> simp

theorem forall_mem_append_cons {p : Path × Phase → Prop} {front back : List (Path × Phase)}
    {task : Path × Phase} :
    (∀ other ∈ front ++ task :: back, p other) ↔ p task ∧ ∀ other ∈ front ++ back, p other := by
  rw [List.forall_mem_append, List.forall_mem_cons, List.forall_mem_append, and_left_comm]

/-- A step of a task leaves it the task of its file. -/
theorem files_eq_of_task {files : List Path} {front back : List (Path × Phase)} {file : Path}
    {phase phase' : Phase} (h : (front ++ (file, phase) :: back).map Prod.fst = files) :
    (front ++ (file, phase') :: back).map Prod.fst = files := by
  rw [← h, List.map_append, List.map_append]
  rfl

/-- The tasks beside one are those of other files. -/
theorem ne_of_mem_others {files : List Path} {front back : List (Path × Phase)}
    {task : Path × Phase} (hfiles : (front ++ task :: back).map Prod.fst = files)
    (hnodup : files.Nodup) :
    task.1 ∈ files ∧ ∀ other ∈ front ++ back, other.1 ∈ files ∧ other.1 ≠ task.1 := by
  rw [List.map_append, List.map_cons] at hfiles
  rw [← hfiles, List.nodup_middle, List.nodup_cons, ← List.map_append] at hnodup
  rw [← hfiles]
  refine ⟨by simp, fun other hother => ⟨?_, ?_⟩⟩
  · rcases List.mem_append.1 hother with h | h
    · exact List.mem_append_left _ (List.mem_map_of_mem h)
    · exact List.mem_append_right _ (List.mem_cons_of_mem _ (List.mem_map_of_mem h))
  · intro heq
    exact hnodup.1 (heq ▸ List.mem_map_of_mem hother)

theorem remaining_of_ended {s : Pool} (h : s.Ended) : remaining s.tasks = [] := by
  rw [remaining, List.map_eq_nil_iff, List.filter_eq_nil_iff]
  intro task htask
  rw [h task htask]
  decide

end Pool

section Sound

variable [Host] {b : Batch} {outDir : Path} {files : List Path} {P : Disk → Path → Phase → Prop}
  {Q : FileResult → Prop} {stats : Stats}

omit [Host] in
theorem sound_start {d : Disk} (h : ∀ file ∈ files, P d file .waiting) :
    Sound files P Q stats (.start d files stats) := by
  refine ⟨?_, ?_, ?_, nofun, rfl⟩
  · rw [Pool.start, List.map_map]
    exact List.map_id _
  · intro task htask
    obtain ⟨file, hfile, rfl⟩ := List.mem_map.1 htask
    exact h file hfile
  · rw [Pool.start, Pool.remaining_waiting]
    exact .refl _

/-- A step keeps what all tasks uphold. -/
theorem sound_step (hupheld : b.Upheld outDir files P Q) (hnodup : files.Nodup) {s t : Pool}
    (hstep : b.Step outDir files s t) (hs : Sound files P Q stats s) :
    Sound files P Q stats t := by
  obtain ⟨hfiles, hphases, hperm, htold, hstats⟩ := hs
  cases hstep with
  | @start d front back file rs counted hfree =>
      obtain ⟨hhead, hothers⟩ := Pool.forall_mem_append_cons.1 hphases
      refine ⟨?_, Pool.forall_mem_append_cons.2 ⟨hupheld.start hhead, hothers⟩, ?_, htold, hstats⟩
      · exact Pool.files_eq_of_task hfiles
      · rw [Pool.remaining_append_cons] at hperm ⊢
        exact hperm
  | @work d d' front back file phase phase' rs counted hwork =>
      obtain ⟨hhead, hothers⟩ := Pool.forall_mem_append_cons.1 hphases
      obtain ⟨hmem, hne⟩ := Pool.ne_of_mem_others hfiles hnodup
      refine ⟨?_, Pool.forall_mem_append_cons.2 ⟨hupheld.own hmem hhead hwork, ?_⟩, ?_, htold,
        hstats⟩
      · exact Pool.files_eq_of_task hfiles
      · intro other hother
        obtain ⟨hmem', hne'⟩ := hne other hother
        exact hupheld.other hmem hmem' hne' hhead hwork (hothers other hother)
      · obtain ⟨hphase, hphase'⟩ := hwork.not_collected
        rw [Pool.remaining_append_cons, hphase] at hperm
        rw [Pool.remaining_append_cons, hphase']
        exact hperm
  | @collect d front back file r rs counted =>
      obtain ⟨hhead, hothers⟩ := Pool.forall_mem_append_cons.1 hphases
      obtain ⟨hfile, hresult⟩ := hupheld.told hhead
      refine ⟨?_, Pool.forall_mem_append_cons.2 ⟨hupheld.collected hhead, hothers⟩, ?_, ?_, ?_⟩
      · exact Pool.files_eq_of_task hfiles
      · refine List.Perm.trans ?_ hperm
        rw [Pool.remaining_append_cons, Pool.remaining_append_cons, List.map_append,
          List.append_assoc]
        refine List.Perm.append_left _ ?_
        show (r.file :: (Pool.remaining front ++ [] ++ Pool.remaining back)).Perm
          (Pool.remaining front ++ [file] ++ Pool.remaining back)
        rw [hfile, List.append_nil, List.append_assoc]
        exact List.perm_middle.symm
      · intro r' hr'
        rcases List.mem_append.1 hr' with h | h
        · exact htold r' h
        · rw [List.mem_singleton.1 h]
          exact hresult
      · rw [List.foldl_append, ← hstats]
        rfl

theorem sound_of_steps (hupheld : b.Upheld outDir files P Q) (hnodup : files.Nodup) {s t : Pool}
    (hsteps : b.Steps outDir files s t) (hs : Sound files P Q stats s) :
    Sound files P Q stats t := by
  induction hsteps with
  | refl => exact hs
  | tail _ hstep ih => exact sound_step hupheld hnodup hstep ih

end Sound

/-- Each task tells of its own file, and of an output exactly if there is no failure. -/
theorem upheld_agrees [Host] (b : Batch) (outDir : Path) (files : List Path) :
    b.Upheld outDir files (fun _ file phase => ∀ r, phase = .finished r → r.file = file ∧ r.Agrees)
      FileResult.Agrees where
  start _ := nofun
  own _ _ hwork := by
    cases hwork with
    | fail h hreported =>
        rintro r ⟨⟩
        exact ⟨rfl, FileResult.agrees_failed _ hreported⟩
    | refuse h =>
        rintro r ⟨⟩
        exact ⟨rfl, FileResult.agrees_failed _ rfl⟩
    | write =>
        rintro r ⟨⟩
        exact ⟨rfl, FileResult.agrees_written _ _ _⟩
    | _ => nofun
  other _ _ _ _ _ h := h
  told h := h _ rfl
  collected _ := nofun

/-- The counters after some results. -/
def Stats.plus (stats : Stats) (rs : List FileResult) : Stats :=
  ⟨stats.total, stats.composed + rs.countP (·.output.isSome),
    stats.failed + rs.countP (·.output.isNone),
    stats.warnings + (rs.map (·.warnings.length)).sum⟩

theorem foldl_count {rs : List FileResult} (h : ∀ r ∈ rs, r.Agrees) (stats : Stats) :
    rs.foldl Stats.count stats = Stats.plus stats rs := by
  induction rs generalizing stats with
  | nil => rfl
  | cons r rs ih =>
      have hagrees : r.failure?.isSome = r.output.isNone := h r List.mem_cons_self
      rw [List.foldl_cons, ih fun r' hr' => h r' (List.mem_cons_of_mem _ hr')]
      cases hout : r.output with
      | none =>
          rw [hout] at hagrees
          simp [Stats.plus, Stats.count, hagrees, hout]
          omega
      | some out =>
          rw [hout] at hagrees
          simp [Stats.plus, Stats.count, hagrees, hout]
          omega

theorem Stats.plus_perm {rs rs' : List FileResult} (h : rs.Perm rs') (stats : Stats) :
    Stats.plus stats rs = Stats.plus stats rs' := by
  rw [plus, plus, h.countP_eq, h.countP_eq, (h.map _).sum_nat]

/-- Results of different files are sorted strictly. -/
theorem pairwise_sorted {d : Disk} (hmap : d.IsMap) {input : Path} {rs : List FileResult}
    (h : (rs.map FileResult.file).Perm (dataFiles d input)) :
    (sorted rs).Pairwise fun r r' => r.file.text < r'.file.text := by
  have hperm : (sorted rs).Perm rs := List.mergeSort_perm _ _
  have hle : (sorted rs).Pairwise fun r r' => r.file.text ≤ r'.file.text := by
    have hsorted : (sorted rs).Pairwise fun r r' => decide (r.file.text ≤ r'.file.text) = true := by
      refine List.pairwise_mergeSort ?_ ?_ rs
      · intro r r' r'' h h'
        exact decide_eq_true (le_trans (of_decide_eq_true h) (of_decide_eq_true h'))
      · intro r r'
        simpa using le_total r.file.text r'.file.text
    exact hsorted.imp fun h => of_decide_eq_true h
  have hne : (sorted rs).Pairwise fun r r' => r.file.text ≠ r'.file.text := by
    have hfiles := (hperm.map FileResult.file).trans h
    have hnodup := hfiles.nodup_iff.2 (nodup_dataFiles hmap input)
    refine (List.pairwise_map.1 hnodup).imp_of_mem fun hr hr' hfile htext => hfile ?_
    exact text_inj_of_mem_dataFiles (hfiles.mem_iff.1 (List.mem_map_of_mem hr))
      (hfiles.mem_iff.1 (List.mem_map_of_mem hr')) htext
  exact (hle.and hne).imp fun hboth => lt_of_le_of_ne hboth.1 hboth.2

theorem remaining_tasks_nil {s : Pool} (h : s.Ended) {files : List Path}
    (hperm : (s.results.map FileResult.file ++ Pool.remaining s.tasks).Perm files) :
    (s.results.map FileResult.file).Perm files := by
  rwa [Pool.remaining_of_ended h, List.append_nil] at hperm

/-- What every schedule gives: the results are sorted strictly, one for each file, and they are what
was counted. -/
theorem of_gives [Host] {b : Batch} {stats counted : Stats} {d : Disk} {input outDir : Path}
    {rs : List FileResult} (hmap : d.IsMap) (h : b.Gives stats d input outDir rs counted) :
    (rs.Pairwise fun r r' => r.file.text < r'.file.text) ∧
      (rs.map FileResult.file).Perm (dataFiles d input) ∧
      counted = Stats.plus { stats with total := (dataFiles d input).length } rs := by
  cases h with
  | empty hfiles =>
      rw [hfiles]
      exact ⟨.nil, .refl _, rfl⟩
  | @ended made s hfiles hmade hsteps hended =>
      have hstart : Sound (dataFiles d input)
          (fun _ file phase => ∀ r, phase = .finished r → r.file = file ∧ r.Agrees)
          FileResult.Agrees { stats with total := (dataFiles d input).length }
          (.start made (dataFiles d input) { stats with total := (dataFiles d input).length }) :=
        sound_start fun _ _ => nofun
      have hsound := sound_of_steps (upheld_agrees b outDir (dataFiles d input))
        (nodup_dataFiles hmap input) hsteps hstart
      have hfinal := remaining_tasks_nil hended hsound.perm
      have hperm : (sorted s.results).Perm s.results := List.mergeSort_perm _ _
      refine ⟨pairwise_sorted hmap hfinal, (hperm.map _).trans hfinal, ?_⟩
      rw [hsound.stats_eq, foldl_count hsound.told, Stats.plus_perm hperm]

end Batch
end Receipt.Command
