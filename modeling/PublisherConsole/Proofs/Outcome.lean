import Mathlib.Tactic

/-!
# Outcomes in sequence

Work in several parts succeeds when all of its parts do.
-/

namespace PublisherConsole

variable {ε α β : Type}

/-- What succeeds in two parts has succeeded in the first one, and with its result in the second. -/
theorem bind_eq_ok {x : Except ε α} {next : α → Except ε β} {b : β} (h : (x >>= next) = .ok b) :
    ∃ a, x = .ok a ∧ next a = .ok b := by
  cases x with
  | error e => cases h
  | ok a => exact ⟨a, rfl, h⟩

end PublisherConsole
