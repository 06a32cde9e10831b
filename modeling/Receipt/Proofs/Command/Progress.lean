import Receipt.Proofs.Command.Serial

/-!
# No schedule runs forever or waits

Each step brings a task closer to its end, `rank_step`, so every schedule ends. As long as there is a
worker a step is possible until all results are picked up, unless a task raises a failure that is
not reported: `progress`. So a batch none of whose tasks can raise comes to its end whatever steps
are taken, `ends_of_not_raises`.
-/
namespace Receipt.Command.Batch

variable [Host] {b : Batch} {outDir : Path} {files : List Path} {s t : Pool}

/-- How many steps a task has before it at most. -/
def Phase.rank : Phase → Nat
  | .waiting => 5
  | .started => 4
  | .prepared .. => 3
  | .opened .. => 2
  | .finished _ => 1
  | .collected => 0

def Pool.rank (s : Pool) : Nat := (s.tasks.map (·.2.rank)).sum

theorem Works.rank_lt {file out : Path} {d d' : Disk} {phase phase' : Phase}
    (h : b.Works file out d phase d' phase') : phase'.rank < phase.rank := by
  cases h <;> simp only [Phase.rank] <;> omega

omit [Host] in
theorem rank_lt_of_task {front back : List (Path × Phase)} {task task' : Path × Phase}
    (h : task'.2.rank < task.2.rank) :
    ((front ++ task' :: back).map (·.2.rank)).sum < ((front ++ task :: back).map (·.2.rank)).sum := by
  simp only [List.map_append, List.map_cons, List.sum_append, List.sum_cons]
  omega

theorem rank_step (h : b.Step outDir files s t) : t.rank < s.rank := by
  cases h with
  | start => exact rank_lt_of_task (Nat.lt_succ_self 4)
  | work h => exact rank_lt_of_task h.rank_lt
  | collect => exact rank_lt_of_task (Nat.zero_lt_one)

/-- A task is at the point where it raises a failure that is not reported. -/
def Raises (b : Batch) (s : Pool) : Prop :=
  ∃ file e, (file, .started) ∈ s.tasks ∧ b.prepare s.disk file = .error e ∧ e.reported = false

/-- A task that a worker is busy with can take a step, or it raises. -/
theorem exists_works {file : Path} {d : Disk} {phase : Phase} (h : phase.isRunning = true) :
    (∃ d' phase', b.Works file (b.outputPath outDir files file) d phase d' phase') ∨
      phase = .started ∧ ∃ e, b.prepare d file = .error e ∧ e.reported = false := by
  cases phase with
  | started =>
      cases hprepare : b.prepare d file with
      | ok made => exact .inl ⟨_, _, .prepare hprepare⟩
      | error e =>
          by_cases hreported : e.reported = true
          · exact .inl ⟨_, _, .fail hprepare hreported⟩
          · exact .inr ⟨rfl, e, rfl, Bool.not_eq_true _ ▸ hreported⟩
  | prepared built text =>
      left
      cases hwrite : d.write (b.outputPath outDir files file) [] with
      | ok after =>
          obtain ⟨there, hthere, hfree, -⟩ := Disk.write_eq_ok hwrite
          exact ⟨_, _, .openOutput hthere hfree⟩
      | error e => exact ⟨_, _, .refuse hwrite⟩
  | opened there built text => exact .inl ⟨_, _, .write⟩
  | waiting => cases h
  | finished r => cases h
  | collected => cases h

/-- A batch that has not ended can take a step, or one of its tasks raises. -/
theorem progress (hworkers : 1 ≤ b.workers) (s : Pool) :
    (∃ t, b.Step outDir files s t) ∨ s.Ended ∨ b.Raises s := by
  obtain ⟨d, tasks, rs, stats⟩ := s
  by_cases hrunning : ∃ task ∈ tasks, task.2.isRunning = true
  · obtain ⟨⟨file, phase⟩, hmem, hphase⟩ := hrunning
    rcases exists_works hphase with ⟨d', phase', hwork⟩ | ⟨rfl, e, hprepare, hreported⟩
    · obtain ⟨front, back, rfl⟩ := List.append_of_mem hmem
      exact .inl ⟨_, .work hwork⟩
    · exact .inr (.inr ⟨file, e, hmem, hprepare, hreported⟩)
  · by_cases hended : ∃ task ∈ tasks, task.2 ≠ .collected
    · obtain ⟨⟨file, phase⟩, hmem, hphase⟩ := hended
      have hidle : phase.isRunning ≠ true := fun h => hrunning ⟨_, hmem, h⟩
      obtain ⟨front, back, rfl⟩ := List.append_of_mem hmem
      -- No worker is busy, so one of them is free for a task that waits.
      have hfree : ((front ++ back).countP (·.2.isRunning) : Int) < b.workers := by
        have hnone : (front ++ back).countP (·.2.isRunning) = 0 := by
          rw [List.countP_eq_zero]
          intro task htask h
          exact hrunning ⟨task, (Pool.forall_mem_append_cons.1 fun _ hother => hother).2 task htask, h⟩
        rw [hnone]
        exact hworkers
      left
      cases phase with
      | waiting => exact ⟨_, .start hfree⟩
      | finished r => exact ⟨_, .collect⟩
      | collected => exact absurd rfl hphase
      | started => exact absurd rfl hidle
      | prepared built text => exact absurd rfl hidle
      | opened there built text => exact absurd rfl hidle
    · exact .inr (.inl fun task htask => not_not.1 fun h => hended ⟨task, htask, h⟩)

/-- Whatever steps are taken, a batch comes to its end. -/
inductive Ends (b : Batch) (outDir : Path) (files : List Path) : Pool → Prop
  | ended {s : Pool} (h : s.Ended) : Ends b outDir files s
  | step {s : Pool} (hstep : ∃ t, b.Step outDir files s t)
      (h : ∀ t, b.Step outDir files s t → Ends b outDir files t) : Ends b outDir files s

/-- A batch none of whose tasks can raise comes to its end under every schedule. -/
theorem ends_of_not_raises (hworkers : 1 ≤ b.workers) (s : Pool)
    (h : ∀ t, b.Steps outDir files s t → ¬ b.Raises t) : b.Ends outDir files s := by
  induction hrank : s.rank using Nat.strong_induction_on generalizing s with
  | _ n ih =>
      rcases progress hworkers s with hstep | hended | hraises
      · refine .step hstep fun t ht => ?_
        have hmore : ∀ last, b.Steps outDir files t last → ¬ b.Raises last :=
          fun last hlast => h last (.head ht hlast)
        exact ih t.rank (hrank ▸ rank_step ht) t hmore rfl
      · exact .ended hended
      · exact absurd hraises (h s .refl)

end Receipt.Command.Batch
