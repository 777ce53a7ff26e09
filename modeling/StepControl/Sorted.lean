/-
Positions of a list's items in ascending order, where equal items keep their order.
-/

namespace StepControl

variable {α : Type}

/-- the items with their positions, in ascending order -/
def ranked (le : α → α → Bool) (items : List α) : List (α × Nat) :=
  items.zipIdx.mergeSort fun a b => le a.1 b.1

/-- for every two neighbours whether they are equal -/
def neighboursEqual [DecidableEq α] (items : List α) : List Bool :=
  items.zipWith (fun a b => a = b) items.tail

end StepControl
