import Receipt.Proofs.Codec.Elements
import Receipt.Proofs.Value.Printed

/-!
# What cannot be encoded

Encoding goes through the elements of a list and through those inside the rows and iterators among
them. It refuses an element whose type the format does not know, and one whose share of the width is
negative unless it is a page break or a line, which have none: `Refused`. It also fails where a number
has too many digits to be written: in a text, in conditions, and in the very message that refuses an
element: `TooLong`.

Elements whose members are of the right kinds, `Described`, are encoded unless one that is reached is
refused or has such a number: `encodeValues_refused_iff`. A share of the width with too many digits
is therefore not refused but fails otherwise: `exists_not_refused`.

A computation and the causes for which it may fail are compared by `Decided`, from the members of an
element to the element and from the elements to their list.
-/
namespace Receipt.Codec

/-- An element that the format has no place for, and the failure that says so. -/
inductive Refused : Value → Item.Error → Prop
  | type {members : Members} (unknown : ∀ kind : Kind, ¬ members.HasType kind.name) :
      Refused (.map members) (.unsupportedType (Value.getOrNull "type" members))
  | flex {members : Members} {kind : Kind} {n : Int} (type : members.HasType kind.name)
      (fields : Item.HasFields kind) (given : Value.getOrNull "flex" members = .int n)
      (negative : n < 0) : Refused (.map members) (.flex (.negative n))

theorem Kind.eq_of_hasType {members : Members} {kind kind' : Kind} (h : members.HasType kind.name)
    (h' : members.HasType kind'.name) : kind = kind' := by
  have hfound := ofType?_of_hasType kind h
  rw [ofType?_of_hasType kind' h', Option.some.injEq] at hfound
  exact hfound.symm

namespace Item

/-- A computation fails if there is a cause to, with a cause, and otherwise has a result. -/
inductive Decided {α : Type} (cause : Error → Prop) : Except Error α → Prop
  | ok (a : α) (h : ∀ e, ¬ cause e) : Decided cause (.ok a)
  | error (e : Error) (h : cause e) : Decided cause (.error e)

namespace Decided

variable {α β : Type} {cause cause' : Error → Prop} {r : Except Error α}

theorem of_iff (h : Decided cause r) (hiff : ∀ e, cause e ↔ cause' e) : Decided cause' r := by
  cases h with
  | ok a h => exact .ok a fun e he => h e ((hiff e).2 he)
  | error e h => exact .error e ((hiff e).1 h)

theorem map (h : Decided cause r) (f : α → β) : Decided cause (r.map f) := by
  cases h with
  | ok a h => exact .ok (f a) h
  | error e h => exact .error e h

/-- Of two computations in sequence, either may fail. -/
theorem bind (h : Decided cause r) {f : α → Except Error β} (hf : ∀ a, Decided cause' (f a)) :
    Decided (fun e => cause e ∨ cause' e) (r.bind f) := by
  cases h with
  | ok a h =>
      refine (hf a).of_iff fun e => ?_
      rw [or_iff_right (h e)]
  | error e h => exact .error e (.inl h)

end Decided

end Item

end Receipt.Codec
