import Mathlib.Algebra.Group.Nat.Defs
import Receipt.Codec.Varint

/-!
# Numbers of variable length are read back

What `encode` writes is read back by `read`, whatever follows, as long as six groups hold the
number, `read_encode`, and is refused if they do not, `read_encode_of_le`. Reading looks at nothing
behind the number: `read_front`.
-/
namespace Receipt.Codec.Varint

/-- The numbers below it take at most six groups. -/
def limit : Nat := 2 ^ 42

theorem encode_of_lt {n : Nat} (h : n < 128) : encode n = [.ofNat n] := by
  rw [encode, if_pos h]

theorem encode_of_le {n : Nat} (h : 128 ≤ n) :
    encode n = .ofNat (n % 128 + 128) :: encode (n / 128) := by
  rw [encode, if_neg (Nat.not_lt.2 h)]

theorem encode_ne_nil (n : Nat) : encode n ≠ [] := by
  rw [encode]
  split <;> exact List.cons_ne_nil _ _

theorem length_encode_pos (n : Nat) : 0 < (encode n).length :=
  List.length_pos_iff.2 (encode_ne_nil n)

theorem readGroups_last {more : Nat} {b : UInt8} (h : b < 128) (bs : List UInt8) :
    readGroups more (b :: bs) = .ok (b.toNat, bs) := by
  unfold readGroups
  rw [if_pos h]

theorem readGroups_more {more : Nat} {b : UInt8} (h : ¬ b < 128) (bs : List UInt8) :
    readGroups (more + 1) (b :: bs) =
      (readGroups more bs).map fun r => (b.toNat - 128 + 128 * r.1, r.2) := by
  rw [readGroups, if_neg h]
  cases readGroups more bs <;> rfl

/-- The byte of a group that is not the last. -/
theorem toNat_marked (n : Nat) : (UInt8.ofNat (n % 128 + 128)).toNat = n % 128 + 128 :=
  UInt8.toNat_ofNat_of_lt' (show n % 128 + 128 < 256 by omega)

theorem marked_not_last (n : Nat) : ¬ UInt8.ofNat (n % 128 + 128) < 128 := by
  rw [UInt8.lt_iff_toNat_lt, toNat_marked]
  exact Nat.not_lt.2 (Nat.le_add_left _ _)

theorem readGroups_single {more n : Nat} (h : n < 128) (rest : List UInt8) :
    readGroups more (encode n ++ rest) = .ok (n, rest) := by
  have hb : (UInt8.ofNat n).toNat = n := UInt8.toNat_ofNat_of_lt' (show n < 256 by omega)
  have hlast : UInt8.ofNat n < 128 := by
    rw [UInt8.lt_iff_toNat_lt, hb]
    exact h
  rw [encode_of_lt h, List.singleton_append, readGroups_last hlast, hb]

/-- Each group that is read leaves room for one fewer. -/
theorem readGroups_encode {more n : Nat} (h : n < 128 ^ (more + 1)) (rest : List UInt8) :
    readGroups more (encode n ++ rest) = .ok (n, rest) := by
  induction more generalizing n with
  | zero => exact readGroups_single (by simpa using h) rest
  | succ more ih =>
      by_cases hn : n < 128
      · exact readGroups_single hn rest
      · have hhigh : n / 128 < 128 ^ (more + 1) := by
          rw [Nat.div_lt_iff_lt_mul (by omega), ← Nat.pow_succ]
          exact h
        rw [encode_of_le (Nat.not_lt.1 hn), List.cons_append,
          readGroups_more (marked_not_last n), ih hhigh, toNat_marked]
        simp only [Except.map, Except.ok.injEq, Prod.mk.injEq, and_true]
        omega

theorem read_encode {n : Nat} (h : n < limit) (rest : List UInt8) :
    read (encode n ++ rest) = .ok (n, rest) :=
  readGroups_encode h rest

theorem readGroups_front {more n : Nat} {bytes rest : List UInt8}
    (h : readGroups more bytes = .ok (n, rest)) :
    ∃ used, bytes = used ++ rest ∧ ∀ other, readGroups more (used ++ other) = .ok (n, other) := by
  induction bytes generalizing more n with
  | nil => simp [readGroups] at h
  | cons b bs ih =>
      by_cases hb : b < 128
      · rw [readGroups_last hb] at h
        cases h
        exact ⟨[b], rfl, fun other => readGroups_last hb other⟩
      · cases more with
        | zero => simp [readGroups, hb] at h
        | succ more =>
            rw [readGroups_more hb] at h
            cases hr : readGroups more bs with
            | error e => simp [hr, Except.map] at h
            | ok r =>
                obtain ⟨high, after⟩ := r
                simp only [hr, Except.map, Except.ok.injEq, Prod.mk.injEq] at h
                obtain ⟨rfl, rfl⟩ := h
                obtain ⟨used, rfl, hused⟩ := ih hr
                refine ⟨b :: used, rfl, fun other => ?_⟩
                rw [List.cons_append, readGroups_more hb, hused]
                rfl

/-- Nothing behind the number matters. -/
theorem read_front {n : Nat} {bytes rest : List UInt8} (h : read bytes = .ok (n, rest)) :
    ∃ used, bytes = used ++ rest ∧ ∀ other, read (used ++ other) = .ok (n, other) :=
  readGroups_front h

/-- What is read takes no more groups than may be read. -/
theorem readGroups_lt {more n : Nat} {bytes rest : List UInt8}
    (h : readGroups more bytes = .ok (n, rest)) : n < 128 ^ (more + 1) := by
  induction bytes generalizing more n with
  | nil => simp [readGroups] at h
  | cons b bs ih =>
      by_cases hb : b < 128
      · rw [readGroups_last hb] at h
        cases h
        have hlow : b.toNat < 128 := UInt8.lt_iff_toNat_lt.1 hb
        have hpow : 128 ^ 1 ≤ 128 ^ (more + 1) := Nat.pow_le_pow_right (by decide) (by omega)
        omega
      · cases more with
        | zero => simp [readGroups, hb] at h
        | succ more =>
            rw [readGroups_more hb] at h
            cases hr : readGroups more bs with
            | error e => simp [hr, Except.map] at h
            | ok r =>
                obtain ⟨high, after⟩ := r
                simp only [hr, Except.map, Except.ok.injEq, Prod.mk.injEq] at h
                obtain ⟨rfl, rfl⟩ := h
                have hhigh := ih hr
                have hbyte := b.toNat_lt
                rw [Nat.pow_succ]
                omega

theorem read_lt_limit {n : Nat} {bytes rest : List UInt8} (h : read bytes = .ok (n, rest)) :
    n < limit :=
  readGroups_lt h

/-- A number that takes more groups than may be read is refused. -/
theorem readGroups_encode_of_le {more n : Nat} (h : 128 ^ (more + 1) ≤ n) (rest : List UInt8) :
    readGroups more (encode n ++ rest) = .error .tooLong := by
  induction more generalizing n with
  | zero =>
      have hn : 128 ≤ n := by simpa using h
      rw [encode_of_le hn, List.cons_append, readGroups, if_neg (marked_not_last n)]
  | succ more ih =>
      have hhigh : 128 ^ (more + 1) ≤ n / 128 := by
        rw [Nat.le_div_iff_mul_le (by omega), ← Nat.pow_succ]
        exact h
      have hpow : 0 < 128 ^ (more + 1) := Nat.pow_pos (by decide)
      have hn : 128 ≤ n := by omega
      rw [encode_of_le hn, List.cons_append, readGroups_more (marked_not_last n), ih hhigh]
      rfl

theorem read_encode_of_le {n : Nat} (h : limit ≤ n) (rest : List UInt8) :
    read (encode n ++ rest) = .error .tooLong :=
  readGroups_encode_of_le h rest

theorem length_encode_mono {m n : Nat} (h : m ≤ n) : (encode m).length ≤ (encode n).length := by
  induction m using encode.induct generalizing n with
  | case1 m hm =>
      rw [encode_of_lt hm]
      exact length_encode_pos n
  | case2 m hm ih =>
      have hn : 128 ≤ n := by omega
      have hdiv : m / 128 ≤ n / 128 := Nat.div_le_div_right h
      rw [encode_of_le (Nat.not_lt.1 hm), encode_of_le hn, List.length_cons, List.length_cons]
      exact Nat.succ_le_succ (ih hdiv)

end Receipt.Codec.Varint
