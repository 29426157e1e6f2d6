/-!
# Steps that may fail

## Main results

* `exists_of_bind_eq_ok` — what is done in two steps is done if both are
* `bind_of_eq_ok` — a step that is done leaves the next
-/

namespace Popularity

/-- What is done in two steps is done if both are. -/
theorem exists_of_bind_eq_ok {ε α β : Type} {x : Except ε α} {f : α → Except ε β} {b : β}
    (h : (x >>= f) = .ok b) : ∃ a, x = .ok a ∧ f a = .ok b := by
  cases x with
  | error why => cases h
  | ok a => exact ⟨a, rfl, h⟩

/-- A step that is done leaves the next. -/
theorem bind_of_eq_ok {ε α β : Type} {x : Except ε α} {f : α → Except ε β} {a : α}
    (h : x = .ok a) : (x >>= f) = f a := by
  rw [h]
  rfl

end Popularity
