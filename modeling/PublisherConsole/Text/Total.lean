/-!
# Totals over a list

`total` adds up a measure over a list. It is additive: the total over two lists put together is the
sum of their totals.
-/

namespace PublisherConsole.Text

variable {α : Type}

/-- The sum of a measure over the members of a list. -/
def total (measure : α → Nat) : List α → Nat
  | [] => 0
  | x :: xs => measure x + total measure xs

@[simp]
theorem total_nil (measure : α → Nat) : total measure [] = 0 := rfl

@[simp]
theorem total_cons (measure : α → Nat) (x : α) (xs : List α) :
    total measure (x :: xs) = measure x + total measure xs := rfl

@[simp]
theorem total_append (measure : α → Nat) (xs ys : List α) :
    total measure (xs ++ ys) = total measure xs + total measure ys := by
  induction xs with
  | nil => simp
  | cons x xs ih => simp [ih, Nat.add_assoc]

end PublisherConsole.Text
