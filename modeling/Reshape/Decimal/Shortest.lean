import Reshape.Decimal

/-! The shortest decimal that reads back as a given double. A double stands for the interval of
reals that round to it, its ends included when the mantissa is even. For one digit, two digits and
so on the two neighbours of the value on that decimal grid are tried: the first grid with a hit
wins, and of two hits the nearer one. Seventeen digits always suffice. -/

namespace Reshape.Decimal

/-- The reals that round to a positive double, as numerators over one denominator. -/
structure Interval where
  lower : Nat
  value : Nat
  upper : Nat
  denominator : Nat
  closed : Bool

/-- Half a unit on either side; below a power of two the lower gap is half as wide. -/
def Interval.ofDouble (m : Nat) (e : Int) : Interval :=
  let narrow := m = Nat.pow 2 52 && e > Double.leastExponent
  let (s, d) := Double.magnitude 1 (e - 2)
  { lower := (if narrow then 4 * m - 1 else 4 * m - 2) * s
    value := 4 * m * s
    upper := (4 * m + 2) * s
    denominator := d
    closed := m % 2 = 0 }

/-- Whether `n * 10 ^ p` lies in the interval. -/
def Interval.contains (i : Interval) (n : Nat) (p : Int) : Bool :=
  let x := if p ≥ 0 then n * Nat.pow 10 p.toNat * i.denominator else n * i.denominator
  let scale := if p ≥ 0 then 1 else Nat.pow 10 (-p).toNat
  if i.closed then i.lower * scale ≤ x && x ≤ i.upper * scale
  else i.lower * scale < x && x < i.upper * scale

/-- The value on the grid of step `10 ^ p`, rounded down, and what is left as a fraction. -/
def Interval.onGrid (i : Interval) (p : Int) : Nat × Nat × Nat :=
  let (n, d) :=
    if p ≥ 0 then (i.value, i.denominator * Nat.pow 10 p.toNat)
    else (i.value * Nat.pow 10 (-p).toNat, i.denominator)
  (n / d, n % d, d)

/-- The nearer of the two grid neighbours inside the interval. -/
def Interval.nearest? (i : Interval) (p : Int) : Option Nat :=
  let (n, r, d) := i.onGrid p
  match i.contains n p && n ≠ 0, i.contains (n + 1) p with
  | true, true =>
    some (if 2 * r < d then n else if 2 * r > d then n + 1 else n + n % 2)
  | true, false => some n
  | false, true => some (n + 1)
  | false, false => none

/-- The power of ten of the leading digit of `n / d`, found from a guess by at most two steps. -/
def leading (n d : Nat) : Int :=
  let guess : Int := ((digits n).length : Int) - (digits d).length
  let atLeast (p : Int) : Bool :=
    if p ≥ 0 then d * Nat.pow 10 p.toNat ≤ n else d ≤ n * Nat.pow 10 (-p).toNat
  if atLeast guess then guess else guess - 1

/-- Tries the grids of `k, k + 1, …` digits. -/
def Interval.search (i : Interval) (lead : Int) : Nat → Nat → Option (Nat × Int)
  | 0, _ => none
  | fuel + 1, k =>
    let p := lead + 1 - k
    match i.nearest? p with
    | some n => some (n, p)
    | none => i.search lead fuel (k + 1)

/-- Drops trailing zeros of a coefficient. -/
def trim : Nat → Nat → Int → Nat × Int
  | 0, n, e => (n, e)
  | fuel + 1, n, e => if n ≠ 0 && n % 10 = 0 then trim fuel (n / 10) (e + 1) else (n, e)

/-- The shortest decimal for a positive double `m * 2 ^ e`. -/
def shortest (m : Nat) (e : Int) : Nat × Int :=
  let i := Interval.ofDouble m e
  match i.search (leading i.value i.denominator) 17 1 with
  | some (n, p) => trim 17 n p
  | none => (i.value / i.denominator, 0)

end Reshape.Decimal
