import Reshape.Double

/-! Decimal numbers: a coefficient of any length and a power of ten. Reading keeps every digit of
the source, so `1.10` and `1.1` differ as data and are equal as numbers. Sums and products are
rounded to `precision` digits, a tie going to the even digit. -/

namespace Reshape

/-- The number `± coefficient * 10 ^ exponent`. -/
structure Decimal where
  negative : Bool
  coefficient : Nat
  exponent : Int
  deriving DecidableEq, Repr, Inhabited

namespace Decimal

/-- Significant digits that a sum or product keeps. -/
def precision : Nat := 28

/-- The greatest exponent of a leading digit that arithmetic delivers. -/
def greatestExponent : Int := 999999

/-- The least exponent of a last digit that arithmetic delivers. -/
def leastLast : Int := -1000026

/-- The decimal digits of a natural number. -/
def digits (n : Nat) : List Char := Nat.toDigits 10 n

/-- The power of ten of the leading digit. -/
def adjusted (d : Decimal) : Int := d.exponent + (digits d.coefficient).length - 1

/-- Whether the exponents lie within what a decimal can hold: the leading digit below
`10 ^ 1000000000000000000`, the last one not below `10 ^ -1999999999999999997`. -/
def inRange (d : Decimal) : Bool :=
  -1999999999999999997 ≤ d.exponent &&
    (if d.coefficient = 0 then d.exponent else d.adjusted) ≤ 999999999999999999

def ofInt (n : Int) : Decimal := ⟨n < 0, n.natAbs, 0⟩

/-- A finite double is a decimal: `m * 2 ^ e` is `m * 5 ^ (-e) * 10 ^ e` for a negative `e`. -/
def ofDouble? : Double → Option Decimal
  | .finite n m e =>
    some (if e ≥ 0 then ⟨n, m * Nat.pow 2 e.toNat, 0⟩ else ⟨n, m * Nat.pow 5 (-e).toNat, e⟩)
  | _ => none

/-- The coefficients of two numbers at their common least exponent. -/
def align (a b : Decimal) : Nat × Nat × Int :=
  let e := min a.exponent b.exponent
  (a.coefficient * Nat.pow 10 (a.exponent - e).toNat,
    b.coefficient * Nat.pow 10 (b.exponent - e).toNat, e)

/-- Order of two magnitudes. The leading digits decide first, so exponents may be far apart. -/
def compareMagnitude (a b : Decimal) : Ordering :=
  if a.coefficient = 0 || b.coefficient = 0 then compare a.coefficient b.coefficient
  else if a.adjusted ≠ b.adjusted then compare a.adjusted b.adjusted
  else
    let (m, n, _) := align a b
    compare m n

def compare (a b : Decimal) : Ordering :=
  match a.negative && a.coefficient != 0, b.negative && b.coefficient != 0 with
  | false, false => compareMagnitude a b
  | true, true => compareMagnitude b a
  | true, false => .lt
  | false, true => .gt

/-- Without its last `n` digits, rounded to the nearest, ties to even. -/
def dropDigits (d : Decimal) (n : Nat) : Decimal :=
  ⟨d.negative, Double.divEven d.coefficient (Nat.pow 10 n), d.exponent + n⟩

/-- At most `precision` digits. Rounding up may carry into one more digit, which is dropped too. -/
def round (d : Decimal) : Decimal :=
  let excess := (digits d.coefficient).length - precision
  if excess = 0 then d
  else
    let r := d.dropDigits excess
    if r.coefficient = Nat.pow 10 precision then r.dropDigits 1 else r

/-- The exponent of a zero is moved into the range of exponents. -/
def clampZero (d : Decimal) : Decimal :=
  { d with exponent := max leastLast (min greatestExponent d.exponent) }

/-- The digits of a small number below the least exponent of a last digit are rounded away. -/
def roundSmall (d : Decimal) : Decimal :=
  if d.exponent < leastLast then
    let n := (leastLast - d.exponent).toNat
    if (digits d.coefficient).length + 1 < n then ⟨d.negative, 0, leastLast⟩ else d.dropDigits n
  else d

/-- A rounded result, unless it lies beyond the greatest exponent. -/
def deliver (d : Decimal) : Option Decimal :=
  if d.coefficient = 0 then some d.clampZero
  else if d.adjusted < -greatestExponent then some d.roundSmall
  else
    let r := d.round
    if r.adjusted > greatestExponent then none else some r

def neg (d : Decimal) : Decimal := { d with negative := !d.negative }

/-- The coefficient with its sign. -/
def signed (d : Decimal) : Int := if d.negative then -(d.coefficient : Int) else d.coefficient

/-- What stands for `small` in a sum with `big`: a number far below the last digit that counts is
replaced by one just below it. -/
def raise (big small : Decimal) : Decimal :=
  let ds := (digits big.coefficient).length
  let place := big.exponent - 1 + (if ds > precision then 0 else (ds : Int) - precision - 1)
  if small.adjusted < place then
    ⟨small.negative, if small.coefficient = 0 then 0 else 1, place⟩
  else small

/-- The sum of a number and one whose exponent is not greater. -/
def addBelow (big small : Decimal) : Decimal :=
  let small := if big.coefficient = 0 then small else raise big small
  let shift := if big.coefficient = 0 then 0 else (big.exponent - small.exponent).toNat
  let sum := big.signed * Nat.pow 10 shift + small.signed
  ⟨if sum = 0 then big.negative && small.negative else sum < 0, sum.natAbs, small.exponent⟩

def add? (a b : Decimal) : Option Decimal :=
  deliver (if b.exponent > a.exponent then addBelow b a else addBelow a b)

def sub? (a b : Decimal) : Option Decimal := a.add? b.neg

def mul? (a b : Decimal) : Option Decimal :=
  deliver ⟨a.negative != b.negative, a.coefficient * b.coefficient, a.exponent + b.exponent⟩

/-- Whether `a` leaves a remainder on division by a non-zero `b`; none when the whole quotient has
more than `precision` digits. -/
def leavesRemainder? (a b : Decimal) : Option Bool :=
  let spread := a.adjusted - b.adjusted
  if a.coefficient = 0 then some false
  else if spread ≤ -2 then some true
  else if spread > precision then none
  else
    let (m, n, _) := align a b
    if n = 0 || m / n ≥ Nat.pow 10 precision then none else some (m % n ≠ 0)

end Decimal

end Reshape
