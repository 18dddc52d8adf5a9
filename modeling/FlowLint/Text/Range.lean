/-! Sets and maps of code points given as ranges and as runs with a fixed distance. -/

namespace FlowLint.Text

/-- `n` lies in one of the ranges; the ends of a range belong to it. -/
def inRanges (ranges : List (Nat × Nat)) (n : Nat) : Bool :=
  ranges.any fun r => r.1 ≤ n && n ≤ r.2

/-- `n` is a member of the run that begins with `first`, ends with `last` and has the given
distance between neighbours. -/
def inRun (first last distance n : Nat) : Bool :=
  first ≤ n && n ≤ last && (n - first) % distance == 0

def inRuns (runs : List (Nat × Nat × Nat)) (n : Nat) : Bool :=
  runs.any fun (first, last, distance) => inRun first last distance n

/-- `n` moved by the offset of the first run that it is a member of. -/
def shiftIn (runs : List (Nat × Nat × Nat × Int)) (n : Nat) : Option Nat :=
  runs.findSome? fun (first, last, distance, offset) =>
    if inRun first last distance n then some (n + offset).toNat else none

/-- The numbers that `shiftIn` moves to `n`. -/
def shiftedTo (runs : List (Nat × Nat × Nat × Int)) (n : Nat) : List Nat :=
  runs.filterMap fun (first, last, distance, offset) =>
    let m := (n - offset : Int).toNat
    if inRun first last distance m && shiftIn runs m == some n then some m else none

end FlowLint.Text
