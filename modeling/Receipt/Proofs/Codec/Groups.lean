import Mathlib.Data.Nat.Size
import Receipt.Proofs.Codec.Varint
import Receipt.Proofs.Except

/-!
# Groups of seven bits

Many lists of bytes are groups of one number, `Groups`, because high groups may be zero. `encode`
gives the shortest of them, and what it gives is read back wherever it stands: `encode_shortest`.
Reading itself does not ask for the shortest form. It takes the groups in front, if there are at
most six, and the sixth marked byte is one too many: `readAt_iff`.
-/
namespace Receipt.Codec.Varint

/-- The bytes are groups of the number, the lowest first, and all but the last are marked. -/
inductive Groups : List UInt8 → Nat → Prop
  | last {b : UInt8} : b < 128 → Groups [b] b.toNat
  | more {b : UInt8} {bs : List UInt8} {high : Nat} : 128 ≤ b → Groups bs high →
      Groups (b :: bs) (b.toNat - 128 + 128 * high)

/-- What is met from an offset on. One below zero counts from the end, and behind the end comes the
start. -/
inductive Ahead (bytes : List UInt8) : Int → List UInt8 → Prop
  | fromStart (k : Nat) : Ahead bytes k (bytes.drop k)
  | fromEnd {front back : List UInt8} : back ≠ [] → bytes = front ++ back →
      Ahead bytes (-back.length) (back ++ bytes)

namespace Groups

variable {bytes other : List UInt8} {m n : Nat}

theorem length_pos (h : Groups bytes n) : 0 < bytes.length := by
  cases h with
  | last _ => exact Nat.zero_lt_one
  | more _ _ => exact Nat.succ_pos _

theorem lt_pow (h : Groups bytes n) : n < 128 ^ bytes.length := by
  induction h with
  | last hb => exact UInt8.lt_iff_toNat_lt.1 hb
  | @more b bs high _ _ ih =>
      have hbyte := b.toNat_lt
      rw [List.length_cons, Nat.pow_succ]
      omega

/-- So many groups of a number can be filled in one way only. -/
theorem eq_of_length_eq (h : Groups bytes m) (h' : Groups other n) (hvalue : m = n)
    (hlength : bytes.length = other.length) : bytes = other := by
  induction h generalizing other n with
  | last hb =>
      cases h' with
      | last hb' => rw [UInt8.toNat_inj.1 hvalue]
      | more _ hbs =>
          have hpos := hbs.length_pos
          simp only [List.length_cons, List.length_nil] at hlength
          omega
  | @more b bs high hb hbs ih =>
      cases h' with
      | last _ =>
          have hpos := hbs.length_pos
          simp only [List.length_cons, List.length_nil] at hlength
          omega
      | @more b' bs' high' hb' hbs' =>
          rw [UInt8.le_iff_toNat_le] at hb hb'
          have hmarked : (128 : UInt8).toNat = 128 := rfl
          have hbyte := b.toNat_lt
          have hbyte' := b'.toNat_lt
          have hlow : b.toNat = b'.toNat := by omega
          have hhigh : high = high' := by omega
          rw [UInt8.toNat_inj.1 hlow, ih hbs' hhigh (Nat.succ.inj hlength)]

end Groups

section writing
variable {k n : Nat}

theorem groups_encode (n : Nat) : Groups (encode n) n := by
  induction n using encode.induct with
  | case1 n hn =>
      have hb : (UInt8.ofNat n).toNat = n := UInt8.toNat_ofNat_of_lt' (show n < 256 by omega)
      have hlast : UInt8.ofNat n < 128 := by
        rw [UInt8.lt_iff_toNat_lt, hb]
        exact hn
      have hgroups := Groups.last hlast
      rw [hb] at hgroups
      rw [encode_of_lt hn]
      exact hgroups
  | case2 n hn ih =>
      have hgroups := Groups.more (UInt8.not_lt.1 (marked_not_last n)) ih
      have hvalue : n % 128 + 128 - 128 + 128 * (n / 128) = n := by omega
      rw [toNat_marked, hvalue] at hgroups
      rw [encode_of_le (Nat.not_lt.1 hn)]
      exact hgroups

/-- The last group is zero only for the number zero. -/
theorem exists_encode_eq_append (n : Nat) :
    ∃ marked last, encode n = marked ++ [last] ∧ (∀ b ∈ marked, 128 ≤ b) ∧ last < 128 ∧
      (last = 0 → n = 0) := by
  induction n using encode.induct with
  | case1 n hn =>
      have hb : (UInt8.ofNat n).toNat = n := UInt8.toNat_ofNat_of_lt' (show n < 256 by omega)
      refine ⟨[], .ofNat n, encode_of_lt hn, List.forall_mem_nil _, ?_, ?_⟩
      · rw [UInt8.lt_iff_toNat_lt, hb]
        exact hn
      · intro hzero
        rw [← hb, hzero]
        rfl
  | case2 n hn ih =>
      obtain ⟨marked, last, hencode, hmarked, hlast, hzero⟩ := ih
      refine ⟨.ofNat (n % 128 + 128) :: marked, last, ?_, ?_, hlast, ?_⟩
      · rw [encode_of_le (Nat.not_lt.1 hn), hencode]
        rfl
      · exact List.forall_mem_cons.2 ⟨UInt8.not_lt.1 (marked_not_last n), hmarked⟩
      · intro hlastZero
        have hhigh := hzero hlastZero
        omega

theorem length_encode_le_iff : (encode n).length ≤ k + 1 ↔ n < 128 ^ (k + 1) := by
  induction k generalizing n with
  | zero =>
      by_cases hn : n < 128
      · simp [encode_of_lt hn, hn]
      · have hpos := length_encode_pos (n / 128)
        rw [encode_of_le (Nat.not_lt.1 hn), List.length_cons]
        omega
  | succ k ih =>
      by_cases hn : n < 128
      · have hpow : 128 ^ 1 ≤ 128 ^ (k + 1 + 1) := Nat.pow_le_pow_right (by decide) (by omega)
        rw [encode_of_lt hn, List.length_singleton]
        omega
      · rw [encode_of_le (Nat.not_lt.1 hn), List.length_cons, Nat.succ_le_succ_iff, ih,
          Nat.pow_succ 128 (k + 1), Nat.div_lt_iff_lt_mul (by decide)]

/-- One byte for each seven bits that are begun, and one for zero. -/
theorem length_encode (n : Nat) : (encode n).length = max 1 ((n.size + 6) / 7) := by
  -- So many bytes suffice if and only if the bits do, seven in each.
  have hbits : ∀ k, (encode n).length ≤ k + 1 ↔ n.size ≤ 7 * (k + 1) := by
    intro k
    rw [length_encode_le_iff, Nat.size_le, Nat.pow_mul]
  have hpos := length_encode_pos n
  obtain ⟨k, hk⟩ := Nat.exists_eq_add_of_le' hpos
  have hle := (hbits k).1 (Nat.le_of_eq hk)
  cases k with
  | zero => omega
  | succ k =>
      have hlt := mt (hbits k).2 (by omega)
      omega

end writing

section reading
variable {bytes rest ahead : List UInt8} {more n : Nat} {offset : Int}

/-- Each group that is read leaves room for one fewer. -/
theorem readGroups_append {groups : List UInt8} (h : Groups groups n)
    (hlength : groups.length ≤ more + 1) (rest : List UInt8) :
    readGroups more (groups ++ rest) = .ok (n, rest) := by
  induction h generalizing more with
  | last hb => exact readGroups_last hb rest
  | more hb hbs ih =>
      have hpos := hbs.length_pos
      rw [List.length_cons] at hlength
      obtain ⟨more, rfl⟩ := Nat.exists_eq_add_of_le' (show 1 ≤ more by omega)
      rw [List.cons_append, readGroups_more (UInt8.not_lt.2 hb), ih (by omega)]
      rfl

theorem readGroups_eq_ok_iff :
    readGroups more bytes = .ok (n, rest) ↔
      ∃ groups, bytes = groups ++ rest ∧ Groups groups n ∧ groups.length ≤ more + 1 := by
  constructor
  · intro h
    induction bytes generalizing more n with
    | nil => simp [readGroups] at h
    | cons b bs ih =>
        by_cases hb : b < 128
        · rw [readGroups_last hb] at h
          cases h
          exact ⟨[b], rfl, .last hb, Nat.le_add_left 1 more⟩
        · cases more with
          | zero => simp [readGroups, hb] at h
          | succ more =>
              rw [readGroups_more hb] at h
              obtain ⟨⟨high, after⟩, hbs, hpair⟩ := map_eq_ok h
              cases hpair
              obtain ⟨groups, rfl, hgroups, hlength⟩ := ih hbs
              exact ⟨b :: groups, rfl, .more (UInt8.not_lt.1 hb) hgroups,
                Nat.succ_le_succ hlength⟩
  · rintro ⟨groups, rfl, hgroups, hlength⟩
    exact readGroups_append hgroups hlength rest

/-- A number goes on with every byte that is marked, and all that may follow the first one are. -/
theorem readGroups_eq_tooLong_iff :
    readGroups more bytes = .error .tooLong ↔
      more < bytes.length ∧ ∀ b ∈ bytes.take (more + 1), 128 ≤ b := by
  induction bytes generalizing more with
  | nil => simp [readGroups]
  | cons b bs ih =>
      rw [List.take_succ_cons, List.forall_mem_cons, List.length_cons]
      by_cases hb : b < 128
      · simp [readGroups_last hb, UInt8.not_le.2 hb]
      · have hmarked : 128 ≤ b := UInt8.not_lt.1 hb
        cases more with
        | zero => simp [readGroups, hb, hmarked]
        | succ more =>
            rw [readGroups_more hb, and_iff_right hmarked, Nat.succ_lt_succ_iff, ← ih]
            cases readGroups more bs <;> simp [Except.map]

theorem readGroups_eq_endOfData_iff :
    readGroups more bytes = .error .endOfData ↔ bytes.length ≤ more ∧ ∀ b ∈ bytes, 128 ≤ b := by
  induction bytes generalizing more with
  | nil => simp [readGroups]
  | cons b bs ih =>
      rw [List.forall_mem_cons, List.length_cons]
      by_cases hb : b < 128
      · simp [readGroups_last hb, UInt8.not_le.2 hb]
      · have hmarked : 128 ≤ b := UInt8.not_lt.1 hb
        cases more with
        | zero => simp [readGroups, hb]
        | succ more =>
            rw [readGroups_more hb, and_iff_right hmarked, Nat.succ_le_succ_iff, ← ih]
            cases readGroups more bs <;> simp [Except.map]

theorem readAt_of_ahead (h : Ahead bytes offset ahead) :
    readAt bytes offset = (read ahead).map fun r =>
      (r.1, offset + (ahead.length - r.2.length : Nat)) := by
  cases h with
  | fromStart k =>
      have hstart : ¬ (k : Int) < 0 := by omega
      rw [readAt]
      simp only [if_neg hstart, Int.toNat_natCast]
  | @fromEnd front back hback hbytes =>
      have hpos : 0 < back.length := List.length_pos_iff.2 hback
      have hnegative : -(back.length : Int) < 0 := by omega
      have hfront : bytes.length - (-(back.length : Int)).natAbs = front.length := by
        rw [hbytes, List.length_append]
        omega
      rw [readAt]
      simp only [if_pos hnegative, hfront]
      rw [hbytes, List.drop_left]

/-- At most six groups in front are a number, and every number that is read is below the limit. A
sixth marked byte is one too many, whatever follows, and fewer bytes that are all marked are cut
off. -/
theorem readAt_iff (h : Ahead bytes offset ahead) :
    (∀ n after, readAt bytes offset = .ok (n, after) ↔
      ∃ groups rest, ahead = groups ++ rest ∧ Groups groups n ∧ groups.length ≤ 6 ∧
        after = offset + groups.length) ∧
      (readAt bytes offset = .error .tooLong ↔
        6 ≤ ahead.length ∧ ∀ b ∈ ahead.take 6, 128 ≤ b) ∧
      (readAt bytes offset = .error .endOfData ↔ ahead.length < 6 ∧ ∀ b ∈ ahead, 128 ≤ b) ∧
      ∀ n after, readAt bytes offset = .ok (n, after) → n < limit := by
  have hfailed : ∀ e, readAt bytes offset = .error e ↔ read ahead = .error e := by
    intro e
    rw [readAt_of_ahead h]
    cases read ahead <;> simp [Except.map]
  have hread : ∀ n after, readAt bytes offset = .ok (n, after) ↔
      ∃ groups rest, ahead = groups ++ rest ∧ Groups groups n ∧ groups.length ≤ 6 ∧
        after = offset + groups.length := by
    intro n after
    rw [readAt_of_ahead h]
    constructor
    · intro hok
      obtain ⟨⟨value, rest⟩, hvalue, hpair⟩ := map_eq_ok hok
      obtain ⟨groups, rfl, hgroups, hlength⟩ := readGroups_eq_ok_iff.1 hvalue
      cases hpair
      refine ⟨groups, rest, rfl, hgroups, hlength, ?_⟩
      rw [List.length_append, Nat.add_sub_cancel_right]
    · rintro ⟨groups, rest, rfl, hgroups, hlength, rfl⟩
      rw [read, readGroups_append hgroups hlength, List.length_append]
      simp only [Except.map, Nat.add_sub_cancel_right]
  -- Both failures are read off the bytes; a bound on the value comes from the number of groups.
  refine ⟨hread, ?_, ?_, ?_⟩
  · rw [hfailed, read, readGroups_eq_tooLong_iff]
    rfl
  · rw [hfailed, read, readGroups_eq_endOfData_iff, Nat.lt_succ_iff]
  · intro n after hok
    rw [readAt_of_ahead h] at hok
    obtain ⟨⟨value, rest⟩, hvalue, hpair⟩ := map_eq_ok hok
    cases hpair
    exact read_lt_limit hvalue

/-- The largest number that can be read, between other bytes. -/
theorem readAt_iff_largest :
    readAt [7, 255, 255, 255, 255, 255, 127, 9] 1 = .ok (limit - 1, 7) := by
  have hahead : Ahead [7, 255, 255, 255, 255, 255, 127, 9] 1
      [255, 255, 255, 255, 255, 127, 9] := .fromStart 1
  have hgroups : Groups [255, 255, 255, 255, 255, 127] (limit - 1) :=
    .more (by decide) (.more (by decide) (.more (by decide) (.more (by decide)
      (.more (by decide) (.last (by decide))))))
  exact ((readAt_iff hahead).1 _ _).2 ⟨_, [9], rfl, hgroups, by decide, rfl⟩

/-- Five marked bytes with another one behind them can be a number still. -/
theorem exists_readAt_sixth :
    ¬ ∀ (bytes ahead : List UInt8) (offset : Int), Ahead bytes offset ahead → 6 ≤ ahead.length →
      (∀ b ∈ ahead.take 5, 128 ≤ b) → readAt bytes offset = .error .tooLong := by
  intro hall
  have hahead : Ahead [128, 128, 128, 128, 128, 1] 0 [128, 128, 128, 128, 128, 1] := .fromStart 0
  have htooLong := hall _ _ 0 hahead (by decide) (by simp)
  have hread : read [128, 128, 128, 128, 128, 1] = .ok (34359738368, []) := rfl
  rw [readAt_of_ahead hahead, hread] at htooLong
  cases htooLong

/-- What is written takes the fewest groups, and is the only list of groups to take so few. It is
read back behind any bytes and before any others, if six groups hold it, and else is refused. -/
theorem encode_shortest (before after : List UInt8) (n : Nat) :
    encodeInt n = .ok (encode n) ∧ Groups (encode n) n ∧
      (∀ other, Groups other n → other = encode n ∨ (encode n).length < other.length) ∧
      (encode n).length = max 1 ((n.size + 6) / 7) ∧
      (∃ marked last, encode n = marked ++ [last] ∧ (∀ b ∈ marked, 128 ≤ b) ∧ last < 128 ∧
        (last = 0 → n = 0)) ∧
      readAt (before ++ (encode n ++ after)) before.length =
        if n < limit then .ok (n, before.length + (encode n).length) else .error .tooLong := by
  have hnonneg : ¬ (n : Int) < 0 := by omega
  have hahead := @Ahead.fromStart (before ++ (encode n ++ after)) before.length
  rw [List.drop_left] at hahead
  refine ⟨?_, groups_encode n, ?_, length_encode n, exists_encode_eq_append n, ?_⟩
  · rw [encodeInt, if_neg hnonneg, Int.toNat_natCast]
  · intro other hother
    obtain ⟨k, hk⟩ := Nat.exists_eq_add_of_le' hother.length_pos
    have hfits : (encode n).length ≤ other.length := by
      rw [hk, length_encode_le_iff, ← hk]
      exact hother.lt_pow
    rcases Nat.eq_or_lt_of_le hfits with hequal | hlt
    · exact .inl (hother.eq_of_length_eq (groups_encode n) rfl hequal.symm)
    · exact .inr hlt
  · rw [readAt_of_ahead hahead]
    split
    · next hlimit =>
      rw [read_encode hlimit, List.length_append]
      simp only [Except.map, Nat.add_sub_cancel_right]
    · next hlimit =>
      rw [read_encode_of_le (Nat.not_lt.1 hlimit)]
      rfl

/-- Two groups of a number, which could have a third one that is zero. -/
theorem encode_shortest_two :
    (encode 300).length < [172, 130, 0].length ∧ readAt [5, 172, 2, 1] 1 = .ok (300, 3) := by
  have hencode : encode 300 = [172, 2] := by cbv
  have hgroups : Groups [172, 130, 0] 300 :=
    .more (by decide) (.more (by decide) (.last (by decide)))
  obtain ⟨-, -, hshortest, -, -, hread⟩ := encode_shortest [5] [1] 300
  rw [if_pos (by decide), hencode] at hread
  refine ⟨(hshortest _ hgroups).resolve_left fun hequal => ?_, hread⟩
  rw [hencode] at hequal
  cases hequal

end reading

end Receipt.Codec.Varint
