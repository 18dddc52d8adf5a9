/-! Sorting by insertion. `before x y` says that `x` has to stand before `y`; elements of which
neither has to stand before the other keep their places. -/

namespace FlowLint

/-- `x` in front of the first element that may stand behind it, in a list that is in order. -/
def insertOrdered {α : Type} (before : α → α → Bool) (x : α) : List α → List α
  | [] => [x]
  | y :: rest => if before y x then y :: insertOrdered before x rest else x :: y :: rest

/-- The elements in order; elements of which neither stands before the other keep their places. -/
def sortOrdered {α : Type} (before : α → α → Bool) : List α → List α
  | [] => []
  | x :: rest => insertOrdered before x (sortOrdered before rest)

example : sortOrdered (fun a b : Nat × Nat => decide (a.1 < b.1)) [(2, 0), (1, 1), (2, 2), (1, 3)] =
    [(1, 1), (1, 3), (2, 0), (2, 2)] := by decide

end FlowLint
