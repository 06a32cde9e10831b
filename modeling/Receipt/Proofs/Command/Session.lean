import Mathlib.Algebra.Order.BigOperators.Group.List
import Receipt.Proofs.Command.Serial

/-!
# The counters of a batch from call to call

A program can call for one batch after another, and for single files in between, and the counters
run on. What was composed and what failed is added to what there was before, and the number of files
is that of the last batch alone: `session_counts`. The two agree as long as at most the last batch
finds any files.
-/
namespace Receipt.Command

namespace Stats

/-- The files whose results were counted. -/
def handled (stats : Stats) : Nat := stats.composed + stats.failed

end Stats

namespace Batch

variable [Host] {b : Batch} {stats counted : Stats}

/-- A call, on the disk that there is when it is made. -/
inductive Call where
  | batch (d : Disk) (input outDir : Path)
  | file (d : Disk) (file outDir : Path) (outName : Option String)

/-- The number of data files that a call finds, if it looks for any. -/
def Call.found? : Call → Option Nat
  | .batch d input _ => some (dataFiles d input).length
  | .file .. => none

/-- The numbers of files that the batches among some calls find. -/
def found (calls : List Call) : List Nat := calls.filterMap Call.found?

/-- What the counters are after a call that does not end abruptly. The files of a batch are worked on
under any schedule. -/
inductive Counts (b : Batch) : Stats → Call → Stats → Prop
  | batch {stats counted : Stats} {d : Disk} {input outDir : Path} {rs : List FileResult}
      (hmap : d.IsMap) (h : b.Gives stats d input outDir rs counted) :
      Counts b stats (.batch d input outDir) counted
  | file {stats : Stats} {d after : Disk} {file outDir : Path} {outName : Option String}
      {r : FileResult} (h : b.composeFile d file outDir outName = (.ok r, after)) :
      Counts b stats (.file d file outDir outName) stats

/-- What the counters are after some calls. -/
inductive Session (b : Batch) : Stats → List Call → Stats → Prop
  | nil {stats : Stats} : Session b stats [] stats
  | cons {stats between counted : Stats} {call : Call} {calls : List Call}
      (hcall : b.Counts stats call between) (hcalls : Session b between calls counted) :
      Session b stats (call :: calls) counted

omit [Host] in
/-- Each result is counted once, as composed or as failed. -/
theorem handled_plus (stats : Stats) (rs : List FileResult) :
    (Stats.plus stats rs).handled = stats.handled + rs.length := by
  have hlength : rs.length = rs.countP (·.output.isSome) + rs.countP (·.output.isNone) := by
    rw [List.length_eq_countP_add_countP (·.output.isSome)]
    simp only [Bool.not_eq_true, Option.isSome_eq_false_iff, Bool.decide_eq_true]
  simp only [Stats.plus, Stats.handled]
  omega

/-- A call adds the files that it finds to those that were handled. -/
theorem Counts.handled_eq {call : Call} (h : b.Counts stats call counted) :
    counted.handled = stats.handled + call.found?.getD 0 := by
  cases h with
  | batch hmap h =>
      obtain ⟨-, hperm, rfl⟩ := of_gives hmap h
      have hlength := hperm.length_eq
      rw [List.length_map] at hlength
      rw [handled_plus, hlength]
      rfl
  | file h => rfl

/-- A call that looks for files replaces the number of files, and no other call does. -/
theorem Counts.total_eq {call : Call} (h : b.Counts stats call counted) :
    counted.total = call.found?.getD stats.total := by
  cases h with
  | batch hmap h =>
      obtain ⟨-, -, rfl⟩ := of_gives hmap h
      rfl
  | file h => rfl

omit [Host] in
theorem found_cons (call : Call) (calls : List Call) :
    found (call :: calls) = call.found?.toList ++ found calls := by
  cases hfound : call.found? <;> simp [found, hfound]

theorem Session.handled_eq {calls : List Call} (h : b.Session stats calls counted) :
    counted.handled = stats.handled + (found calls).sum := by
  induction h with
  | nil => rfl
  | @cons stats between counted call calls hcall _ ih =>
      rw [ih, hcall.handled_eq, found_cons, List.sum_append]
      cases call.found? with
      | none => simp
      | some n => simp [Nat.add_assoc]

theorem Session.total_eq {calls : List Call} (h : b.Session stats calls counted) :
    counted.total = (found calls).getLast?.getD stats.total := by
  induction h with
  | nil => rfl
  | @cons stats between counted call calls hcall _ ih =>
      rw [ih, hcall.total_eq, found_cons, List.getLast?_append]
      cases (found calls).getLast? <;> cases call.found? <;> rfl

omit [Host] in
/-- A sum is its last summand exactly if there is nothing before. -/
theorem sum_eq_getLast_iff (ns : List Nat) :
    ns.sum = ns.getLast?.getD 0 ↔ ∀ n ∈ ns.dropLast, n = 0 := by
  rcases ns.eq_nil_or_concat with rfl | ⟨before, last, rfl⟩
  · simp
  · rw [List.concat_eq_append, List.sum_append, List.getLast?_concat, List.dropLast_concat,
      ← List.sum_eq_zero_iff]
    simp

/-- The counters of a session: each file that a batch finds is counted as composed or as failed, and
the number of files is what the last batch finds. The first two make up the third exactly if no
batch but the last finds any files. -/
theorem session_counts {calls : List Call} (h : b.Session .zero calls stats) :
    stats.composed + stats.failed = (found calls).sum ∧
      stats.total = (found calls).getLast?.getD 0 ∧
      (stats.composed + stats.failed = stats.total ↔ ∀ n ∈ (found calls).dropLast, n = 0) := by
  have hhandled : stats.composed + stats.failed = (found calls).sum := by
    have hsum := h.handled_eq
    rwa [show Stats.zero.handled = 0 from rfl, Nat.zero_add] at hsum
  have htotal : stats.total = (found calls).getLast?.getD 0 := h.total_eq
  exact ⟨hhandled, htotal, by rw [hhandled, htotal, sum_eq_getLast_iff]⟩

omit [Host] in
theorem dataFiles_nil (input : Path) : dataFiles [] input = [] := by
  have hlist : Disk.list [] input = [] := by
    rw [Disk.list]
    split <;> rfl
  simp only [dataFiles, hlist, List.filter_nil, List.mergeSort_nil, List.map_nil]

/-- A batch of two files, and one in a directory without any. -/
def emptyAfter : List Call := [.batch sameStemDisk ["in"] ["out"], .batch [] ["in"] ["out"]]

omit [Host] in
theorem session_emptyAfter :
    letI := Host.standard 2025
    ∃ stats, undeclaredBatch.Session .zero emptyAfter stats := by
  let host := Host.standard 2025
  obtain ⟨rs, after, hrun⟩ := composeBatch_sameStemDisk
  have hmap := sameStemDisk_isMap
  exact ⟨_, .cons (.batch hmap (gives_of_composeBatch hmap hrun))
    (.cons (.batch List.nodup_nil (.empty (dataFiles_nil _))) .nil)⟩

omit [Host] in
theorem found_emptyAfter : found emptyAfter = [2, 0] := by
  have hfound : found emptyAfter =
      [(dataFiles sameStemDisk ["in"]).length, (dataFiles [] ["in"]).length] := rfl
  rw [hfound, dataFiles_sameStemDisk, dataFiles_nil]
  rfl

omit [Host] in
theorem session_counts_emptyAfter :
    letI := Host.standard 2025
    ∃ stats, undeclaredBatch.Session .zero emptyAfter stats ∧
      stats.composed + stats.failed = 2 ∧ stats.total = 0 := by
  let host := Host.standard 2025
  obtain ⟨stats, h⟩ := session_emptyAfter
  obtain ⟨hhandled, htotal, -⟩ := session_counts h
  rw [found_emptyAfter] at hhandled htotal
  exact ⟨stats, h, hhandled, htotal⟩

omit [Host] in
/-- A batch that finds no files leaves what was handled before, and no files that it was found
among. -/
theorem exists_session_ne :
    letI := Host.standard 2025
    ¬ ∀ (b : Batch) (calls : List Call) (stats : Stats), b.Session .zero calls stats →
      stats.composed + stats.failed = stats.total := by
  let host := Host.standard 2025
  intro hall
  obtain ⟨stats, h⟩ := session_emptyAfter
  have hequal : stats.handled = stats.total := hall _ _ _ h
  rw [h.handled_eq, h.total_eq, found_emptyAfter] at hequal
  cases hequal

end Batch
end Receipt.Command
