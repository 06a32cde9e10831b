import Mathlib.Algebra.Group.Nat.Defs
import Receipt.Number.Reader

/-!
# Numbers that are read can be written

A whole number has few enough digits if it is less than a power of ten, `fits_iff`. The limit on
digits is one for reading and for writing, so a whole number that is read can be written,
`fits_of_readInt`.
-/
namespace Receipt.Number

open Text

theorem digitValue?_lt {c : Char} {d : Nat} (h : digitValue? c = some d) : d < 10 := by
  unfold digitValue? at h
  split at h
  · split at h
    · next hdigit =>
      cases h
      simp only [Char.isDigit, Bool.and_eq_true, decide_eq_true_eq] at hdigit
      have hle : c.toNat ≤ 57 := UInt32.le_iff_toNat_le.mp hdigit.2
      omega
    · cases h
  · obtain ⟨start, -, rfl⟩ := Option.map_eq_some_iff.1 h
    exact Nat.mod_lt _ (by decide)

theorem lt_ten_of_mem_moreDigits {cs : List Char} : ∀ d ∈ (moreDigits cs).1, d < 10 := by
  fun_induction moreDigits cs with
  | case1 => nofun
  | case2 c d hd =>
      intro e he
      rw [List.mem_singleton.1 he]
      exact digitValue?_lt hd
  | case3 => nofun
  | case4 c next cs d hd ih =>
      intro e he
      rcases List.mem_cons.1 he with rfl | he
      · exact digitValue?_lt hd
      · exact ih e he
  | case5 next cs d hd _ ih =>
      intro e he
      rcases List.mem_cons.1 he with rfl | he
      · exact digitValue?_lt hd
      · exact ih e he
  | case6 => nofun

theorem lt_ten_of_mem_digitRun {cs : List Char} : ∀ d ∈ (digitRun cs).1, d < 10 := by
  unfold digitRun
  split
  · nofun
  · exact lt_ten_of_mem_moreDigits

/-- What digits write is less than the power of ten with so many zeros; the induction lets other
digits come before them. -/
theorem foldl_digits_lt {ds : List Nat} (h : ∀ d ∈ ds, d < 10) (n : Nat) :
    ds.foldl (fun n d => n * 10 + d) n < (n + 1) * 10 ^ ds.length := by
  induction ds generalizing n with
  | nil => simp
  | cons d ds ih =>
      have hd : d < 10 := h d List.mem_cons_self
      have hmore := ih (fun e he => h e (List.mem_cons_of_mem d he)) (n * 10 + d)
      have hle : (n * 10 + d + 1) * 10 ^ ds.length ≤ (n + 1) * 10 * 10 ^ ds.length :=
        Nat.mul_le_mul_right _ (by omega)
      rw [List.foldl_cons, List.length_cons, Nat.pow_succ', ← Nat.mul_assoc]
      exact Nat.lt_of_lt_of_le hmore hle

theorem ofDigits_lt {ds : List Nat} (h : ∀ d ∈ ds, d < 10) : ofDigits ds < 10 ^ ds.length := by
  have hlt := foldl_digits_lt h 0
  rwa [Nat.zero_add, Nat.one_mul] at hlt

theorem natAbs_applySign (negative : Bool) (n : Nat) : (applySign negative n).natAbs = n := by
  cases negative <;> simp [applySign]

theorem fits_iff {n : Int} : fits n = true ↔ n.natAbs < 10 ^ digitLimit := by
  rw [fits, decide_eq_true_iff]
  exact Nat.length_toDigits_le_iff (by decide) (by decide)

theorem fits_of_ofLimitedDigits {negative : Bool} {ds : List Nat} {n : Int}
    (hds : ∀ d ∈ ds, d < 10) (h : ofLimitedDigits negative ds = .ok n) : fits n = true := by
  unfold ofLimitedDigits at h
  split at h
  · cases h
  · next hlength =>
    cases h
    rw [fits_iff, natAbs_applySign]
    exact Nat.lt_of_lt_of_le (ofDigits_lt hds)
      (Nat.pow_le_pow_right (by decide) (Nat.not_lt.1 hlength))

/-- A whole number that is read can be written. -/
theorem fits_of_readInt {cs : List Char} {n : Int} (h : readInt cs = .ok n) : fits n = true := by
  have hds : ∀ d ∈ (digitRun (signed (withoutMargins cs)).2).1, d < 10 := lt_ten_of_mem_digitRun
  unfold readInt at h
  simp only at h
  split at h
  · cases h
  · cases h
  · next ds hrun =>
    rw [hrun] at hds
    exact fits_of_ofLimitedDigits hds h
  · next ds rest _ _ _ hrun =>
    split at h
    · cases h
    · cases h

end Receipt.Number
