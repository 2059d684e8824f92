/-! Stable sorting by a test that may fail, and that need not be consistent. Short lists are sorted
by insertion behind the run that stands at their start, the place of each item being found by
halving; longer ones are halved and merged. For a consistent order both give the one stable
result; the items that an inconsistent test compares are part of the answer. -/

namespace Reshape.Sequence

variable {ε α : Type} (before : α → α → Except ε Bool)

/-- The longest part of a list in which the test holds, or fails, between each item and the one in
front of it, the first one being `last`; and the rest. -/
def takeRun (descending : Bool) (last : α) : List α → Except ε (List α × List α)
  | [] => .ok ([], [])
  | x :: rest => do
    if (← before x last) = descending then
      let (run, rest) ← takeRun descending x rest
      return (x :: run, rest)
    else return ([], x :: rest)

/-- The run at the start of a list, put in ascending order, and the rest. -/
def leadingRun : List α → Except ε (List α × List α)
  | [] => .ok ([], [])
  | [x] => .ok ([x], [])
  | x :: y :: rest => do
    let descending ← before y x
    let (run, rest) ← takeRun before descending y rest
    let run := x :: y :: run
    return (if descending then run.reverse else run, rest)

/-- The place of an item in a sorted list, between `low` and `high`: behind all that it does not
come before. -/
def place (x : α) (sorted : List α) (low high : Nat) : Except ε Nat :=
  if _h : low < high then
    let middle := low + (high - low) / 2
    match sorted[middle]? with
    | none => .ok low
    | some y => do
      if ← before x y then place x sorted low middle else place x sorted (middle + 1) high
  else .ok low
termination_by high - low

/-- Puts items one after the other into a sorted list. -/
def insertAll : List α → List α → Except ε (List α)
  | sorted, [] => .ok sorted
  | sorted, x :: rest => do
    let i ← place before x sorted 0 sorted.length
    insertAll (sorted.take i ++ x :: sorted.drop i) rest

/-- Merges two sorted lists; of equal items that of the first list comes first. -/
def merge : List α → List α → Except ε (List α)
  | [], ys => .ok ys
  | xs, [] => .ok xs
  | x :: xs, y :: ys => do
    if ← before y x then return y :: (← merge (x :: xs) ys)
    else return x :: (← merge xs (y :: ys))
termination_by xs ys => xs.length + ys.length

/-- Lists from this length on are halved. -/
def shortLimit : Nat := 64

def sort (xs : List α) : Except ε (List α) :=
  if xs.length < shortLimit then do
    let (run, rest) ← leadingRun before xs
    insertAll before run rest
  else do
    let half := xs.length / 2
    let front ← sort (xs.take half)
    let back ← sort (xs.drop half)
    merge before front back
termination_by xs.length
decreasing_by
  all_goals
    simp only [shortLimit] at *
    simp
    omega

end Reshape.Sequence
