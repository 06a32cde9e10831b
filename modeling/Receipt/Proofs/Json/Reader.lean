import Receipt.Json.Reader
import Receipt.Json.Writer
import Receipt.Proofs.Except
import Receipt.Proofs.Number.Limit

/-!
# What is read from JSON can be written as JSON

A value that the reader gives holds nothing that JSON does not know, and no number that is too long
to be written: `fault?_of_read?`. The induction is on the steps that the reader may take, over
values, items and members at once.
-/
namespace Receipt.Json

variable {strict : Bool}

theorem itemsFault?_cons_eq_none {v : Value} {vs : List Value} :
    itemsFault? strict (v :: vs) = none ↔ fault? strict v = none ∧ itemsFault? strict vs = none :=
  Option.or_eq_none_iff

theorem membersFault?_cons_eq_none {key : Key} {v : Value} {rest : List (Key × Value)} :
    membersFault? strict ((key, v) :: rest) = none ↔
      (keyFault? key = none ∧ fault? strict v = none) ∧ membersFault? strict rest = none := by
  rw [membersFault?, Option.or_eq_none_iff, Option.or_eq_none_iff]

theorem membersFault?_put {key : Key} {v : Value} {members : Members}
    (hkey : keyFault? key = none) (hv : fault? strict v = none)
    (h : membersFault? strict members = none) :
    membersFault? strict (members.put key v) = none := by
  induction members with
  | nil => exact membersFault?_cons_eq_none.2 ⟨⟨hkey, hv⟩, rfl⟩
  | cons member rest ih =>
      obtain ⟨other, w⟩ := member
      obtain ⟨hother, hrest⟩ := membersFault?_cons_eq_none.1 h
      rw [Members.put]
      by_cases hsame : other = key
      · rw [if_pos hsame]
        exact membersFault?_cons_eq_none.2 ⟨⟨hkey, hv⟩, hrest⟩
      · rw [if_neg hsame]
        exact membersFault?_cons_eq_none.2 ⟨hother, ih hrest⟩

theorem membersFault?_ofList {members : List (Key × Value)}
    (h : membersFault? strict members = none) :
    membersFault? strict (Members.ofList members) = none := by
  have hfold : ∀ start : Members, membersFault? strict start = none →
      membersFault? strict (members.foldl (fun ms m => Members.put m.1 m.2 ms) start) = none := by
    induction members with
    | nil => exact fun start hstart => hstart
    | cons member rest ih =>
        intro start hstart
        obtain ⟨⟨hkey, hv⟩, hrest⟩ := membersFault?_cons_eq_none.1 h
        exact ih hrest _ (membersFault?_put hkey hv hstart)
  exact hfold [] rfl

theorem fault?_of_readWord? {cs : List Char} {v : Value} {n : Nat}
    (h : readWord? cs = some (v, n)) : fault? true v = none := by
  have hwords : ∀ w ∈ wordValues, fault? true w.2 = none := by decide
  obtain ⟨w, hw, heq⟩ := Option.map_eq_some_iff.1 h
  have hv : w.2 = v := congrArg Prod.fst heq
  rw [← hv]
  exact hwords w (List.mem_of_find?_eq_some hw)

theorem fault?_of_readNumber {cs : List Char} {v : Value} {n : Nat}
    (h : readNumber cs = .ok (v, n)) : fault? true v = none := by
  unfold readNumber at h
  split at h
  · cases h
  · simp only at h
    split at h
    · split at h
      · next n hint =>
        cases h
        exact if_pos (Number.fits_of_readInt hint)
      · cases h
      · cases h
    · split at h
      · cases h
        rfl
      · cases h

/-- So many steps give only what can be written. -/
structure ReadsJson (fuel : Nat) : Prop where
  value : ∀ {cursor rest : Cursor} {v : Value},
    readValue fuel cursor = .ok (v, rest) → fault? true v = none
  items : ∀ {cursor rest : Cursor} {vs : List Value},
    readItems fuel cursor = .ok (vs, rest) → itemsFault? true vs = none
  members : ∀ {cursor rest : Cursor} {ms : List (Key × Value)},
    readMembers fuel cursor = .ok (ms, rest) → membersFault? true ms = none

theorem ReadsJson.step {fuel : Nat} (h : ReadsJson fuel) : ReadsJson (fuel + 1) := by
  constructor
  · intro cursor rest v hread
    rw [readValue] at hread
    split at hread
    · obtain ⟨⟨s, after⟩, -, hs⟩ := bind_eq_ok hread
      cases hs
      rfl
    · simp only at hread
      split at hread
      · cases hread
        rfl
      · obtain ⟨⟨vs, after⟩, hitems, hs⟩ := bind_eq_ok hread
        cases hs
        exact h.items hitems
    · simp only at hread
      split at hread
      · cases hread
        rfl
      · obtain ⟨⟨ms, after⟩, hmembers, hs⟩ := bind_eq_ok hread
        cases hs
        exact membersFault?_ofList (h.members hmembers)
    · split at hread
      · next w n hword =>
        cases hread
        exact fault?_of_readWord? hword
      · split at hread
        · next w n hnumber =>
          cases hread
          exact fault?_of_readNumber hnumber
        · cases hread
  · intro cursor rest vs hread
    rw [readItems] at hread
    obtain ⟨⟨v, after⟩, hvalue, hread⟩ := bind_eq_ok hread
    simp only at hread
    split at hread
    · cases hread
      exact itemsFault?_cons_eq_none.2 ⟨h.value hvalue, rfl⟩
    · obtain ⟨⟨more, last⟩, hmore, hs⟩ := bind_eq_ok hread
      cases hs
      exact itemsFault?_cons_eq_none.2 ⟨h.value hvalue, h.items hmore⟩
    · cases hread
  · intro cursor rest ms hread
    rw [readMembers] at hread
    split at hread
    · cases hread
    obtain ⟨⟨name, colon⟩, -, hread⟩ := bind_eq_ok hread
    simp only at hread
    split at hread
    · cases hread
    obtain ⟨⟨v, after⟩, hvalue, hread⟩ := bind_eq_ok hread
    simp only at hread
    split at hread
    · cases hread
      exact membersFault?_cons_eq_none.2 ⟨⟨rfl, h.value hvalue⟩, rfl⟩
    · obtain ⟨⟨more, last⟩, hmore, hs⟩ := bind_eq_ok hread
      cases hs
      exact membersFault?_cons_eq_none.2 ⟨⟨rfl, h.value hvalue⟩, h.members hmore⟩
    · cases hread

theorem readsJson (fuel : Nat) : ReadsJson fuel := by
  induction fuel with
  | zero => constructor <;> intro _ _ _ h <;> cases h
  | succ fuel ih => exact ih.step

theorem fault?_of_read? {text : List Char} {v : Value} (h : read? text = .ok v) :
    fault? true v = none := by
  unfold read? at h
  have hread := mapError_eq_ok h
  split at hread
  · cases hread
  obtain ⟨⟨found, after⟩, hvalue, hread⟩ := bind_eq_ok hread
  simp only at hread
  split at hread
  · cases hread
    exact (readsJson _).value hvalue
  · cases hread

end Receipt.Json
