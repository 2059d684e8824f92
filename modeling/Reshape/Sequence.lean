/-! Items and slices of lists, counted from either end: `-1` is the last item. Bounds of a slice
that lie outside are moved to the nearest end. -/

namespace Reshape.Sequence

variable {α : Type}

/-- The greatest number of items that memory can hold. -/
def memoryLimit : Nat := Nat.pow 2 30

/-- The greatest number of items that can be written down at all. -/
def sizeLimit : Nat := Nat.pow 2 63 - 1

/-- An item by its index; a negative one counts from behind the end. -/
def at? (items : List α) (n : Int) : Option α :=
  let i := if n < 0 then n + items.length else n
  if i < 0 then none else items[i.toNat]?

/-- A bound moved into the range from `low` to `high`. -/
def clamp (low high n : Int) : Int := if n < low then low else if n > high then high else n

/-- A given bound of a slice of `length` items. -/
def bound (length low high n : Int) : Int := clamp low high (if n < 0 then n + length else n)

/-- `count` items from `start` on, `step` apart. -/
def stride (items : List α) (step : Int) : Nat → Int → List α
  | 0, _ => []
  | count + 1, start =>
    match items[start.toNat]? with
    | some v => v :: stride items step count (start + step)
    | none => stride items step count (start + step)

/-- The number of steps from `start` before `stop`. -/
def steps (start stop step : Int) : Nat :=
  if step > 0 then ((stop - start + step - 1) / step).toNat
  else ((start - stop - step - 1) / (-step)).toNat

/-- A slice; none for a step of zero. -/
def slice? (items : List α) (start stop step : Option Int) : Option (List α) :=
  let n : Int := items.length
  let s := step.getD 1
  if s = 0 then none
  else if s > 0 then
    let a := bound n 0 n (start.getD 0)
    let b := bound n 0 n (stop.getD n)
    some (stride items s (steps a b s) a)
  else
    let a := match start with
      | some k => bound n (-1) (n - 1) k
      | none => n - 1
    let b := match stop with
      | some k => bound n (-1) (n - 1) k
      | none => -1
    some (stride items s (steps a b s) a)

end Reshape.Sequence
