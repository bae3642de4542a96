/-!
# Computations that fail

What follows from the success of a computation that goes on after another one.

## Main results

* `bind_eq_ok`: both of them have succeeded
-/

namespace SfcProxy

/-- A computation that goes on after another one succeeds only if that one does. -/
theorem bind_eq_ok {ε α β : Type} {x : Except ε α} {f : α → Except ε β} {b : β}
    (h : x >>= f = .ok b) : ∃ a, x = .ok a ∧ f a = .ok b := by
  cases x with
  | error e => cases h
  | ok a => exact ⟨a, rfl, h⟩

end SfcProxy
