import Receipt.Value.Printed

/-!
# Values that can be printed

A value is printed unless it has a fault, `print_eq_ok_iff`. If a value is JSON, only a whole number
with too many digits keeps it from being written: `Json.fault?_of_isJson`.
-/
namespace Receipt

/-- JSON has the key. -/
def Key.IsJson : Key → Prop
  | .date _ | .moment _ => False
  | _ => True

theorem Key.keyFault?_of_isJson {key : Key} (h : key.IsJson) :
    Json.keyFault? key = if key.fits then none else some .tooLong := by
  cases key with
  | date | moment => cases h
  | _ => rfl

namespace Json

mutual
/-- JSON has the value: no date, moment or `missing` is in it, not even as a key. -/
def IsJson : Value → Prop
  | .missing | .date _ | .moment _ => False
  | .list items => AreJson items
  | .tuple items => AreJson items
  | .map members => MembersAreJson members
  | _ => True

def AreJson : List Value → Prop
  | [] => True
  | v :: vs => IsJson v ∧ AreJson vs

def MembersAreJson : List (Key × Value) → Prop
  | [] => True
  | (key, v) :: rest => key.IsJson ∧ IsJson v ∧ MembersAreJson rest
end

mutual
theorem fault?_of_isJson : ∀ {v : Value}, IsJson v →
    fault? true v = if v.fits then none else some .tooLong
  | .int n, _ => by rw [fault?, Value.fits]
  | .list items, h | .tuple items, h => by
      rw [fault?, Value.fits]
      exact itemsFault?_of_areJson h
  | .map members, h => by
      rw [fault?, Value.fits]
      exact membersFault?_of_areJson h
  | .null, _ | .bool _, _ | .double _, _ | .text _, _ | .unresolved _, _ => rfl
  | .missing, h | .date _, h | .moment _, h => h.elim

theorem itemsFault?_of_areJson : ∀ {vs : List Value}, AreJson vs →
    itemsFault? true vs = if Value.allFit vs then none else some .tooLong
  | [], _ => rfl
  | v :: vs, h => by
      rw [itemsFault?, Value.allFit, fault?_of_isJson h.1, itemsFault?_of_areJson h.2]
      cases v.fits <;> rfl

theorem membersFault?_of_areJson : ∀ {members : List (Key × Value)}, MembersAreJson members →
    membersFault? true members = if Value.membersFit members then none else some .tooLong
  | [], _ => rfl
  | (key, v) :: rest, h => by
      rw [membersFault?, Value.membersFit, Key.keyFault?_of_isJson h.1, fault?_of_isJson h.2.1,
        membersFault?_of_areJson h.2.2]
      cases key.fits <;> cases v.fits <;> rfl
end

end Json

namespace Value

theorem print_eq_ok_iff {v : Value} {s : String} :
    v.print = .ok s ↔ v.printFault? = none ∧ v.printed = s := by
  rw [print]
  cases v.printFault? <;> simp

theorem print_eq_error_iff {v : Value} {e : Unwritable} :
    v.print = .error e ↔ v.printFault? = some e := by
  rw [print]
  cases v.printFault? <;> simp

@[simp] theorem print_text (s : String) : (Value.text s).print = .ok s := rfl

end Value
end Receipt
