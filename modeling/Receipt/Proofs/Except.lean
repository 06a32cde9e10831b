/-!
# Computations that may fail, in sequence

How a sequence of two computations, or a computation whose result is changed, can come out.
-/
namespace Receipt

variable {ε α β : Type} {r : Except ε α}

theorem bind_eq_ok {f : α → Except ε β} {b : β} (h : r.bind f = .ok b) :
    ∃ a, r = .ok a ∧ f a = .ok b := by
  cases r with
  | error e => cases h
  | ok a => exact ⟨a, rfl, h⟩

theorem bind_eq_error {f : α → Except ε β} {e : ε} (h : r.bind f = .error e) :
    r = .error e ∨ ∃ a, r = .ok a ∧ f a = .error e := by
  cases r with
  | error e' =>
      cases h
      exact .inl rfl
  | ok a => exact .inr ⟨a, rfl, h⟩

theorem map_eq_ok {f : α → β} {b : β} (h : r.map f = .ok b) : ∃ a, r = .ok a ∧ f a = b := by
  cases r with
  | error e => cases h
  | ok a =>
      cases h
      exact ⟨a, rfl, rfl⟩

theorem map_eq_error {f : α → β} {e : ε} (h : r.map f = .error e) : r = .error e := by
  cases r with
  | error e' =>
      cases h
      rfl
  | ok a => cases h

theorem mapError_eq_ok {ε' : Type} {f : ε → ε'} {a : α} (h : r.mapError f = .ok a) :
    r = .ok a := by
  cases r with
  | error e => cases h
  | ok b =>
      cases h
      rfl

theorem mapError_eq_error {ε' : Type} {f : ε → ε'} {e' : ε'} (h : r.mapError f = .error e') :
    ∃ e, r = .error e ∧ f e = e' := by
  cases r with
  | error e =>
      cases h
      exact ⟨e, rfl, rfl⟩
  | ok a => cases h

/-- The failure of a computation, if it fails. -/
def failure? : Except ε α → Option ε
  | .error e => some e
  | .ok _ => none

theorem failure?_map (f : α → β) : failure? (r.map f) = failure? r := by cases r <;> rfl

/-- Of two computations in sequence, the second one can only fail if the first does not. -/
theorem failure?_sequence {γ : Type} {s : Except ε β} (f : α → β → γ) :
    failure? (do let a ← r; let b ← s; return f a b) = (failure? r).or (failure? s) := by
  cases r <;> cases s <;> rfl

theorem toOption_eq_some {a : α} (h : r.toOption = some a) : r = .ok a := by
  cases r with
  | error e => cases h
  | ok b =>
      cases h
      rfl

end Receipt
