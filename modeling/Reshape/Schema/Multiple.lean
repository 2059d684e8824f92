import Reshape.Fault
import Reshape.Number.Arithmetic

/-! Multiples. With a double as divisor the quotient must be whole, and with any other divisor the
remainder must be zero. -/

namespace Reshape.Schema

def toDouble : Number → Except Crash Double
  | .double d => .ok d
  | .int n =>
    match Double.ofInt? n with
    | some d => .ok d
    | none => .error .overflow
  | .decimal _ => .error .wrongKind

/-- Whether the exact quotient of two finite doubles is whole. -/
def isExactMultiple (x y : Double) : Bool :=
  match x.ratio?, y.ratio? with
  | some (p, q), some (r, s) => (p * s) % (r * q) == 0
  | _, _ => false

/-- Whether a number is exactly a multiple of a double; no quotient of an infinity is known. -/
def dividesExactly (n : Number) (divisor : Double) : Except Crash Bool :=
  match n, divisor.ratio? with
  | .int a, some (r, s) => .ok ((a * s) % r == 0)
  | .double x, _ => if x.isFinite then .ok (isExactMultiple x divisor) else .error .overflow
  | _, _ => .error .overflow

/-- Whether a number divided by a double is whole. A quotient beyond every double is taken
exactly. -/
def dividesByDouble (n : Number) (divisor : Double) : Except Crash Bool := do
  let x ← toDouble n
  if divisor.isZero then throw .division
  match x.div divisor with
  | .nan => throw .badValue
  | .infinity _ => dividesExactly n divisor
  | q => return q.isWhole

/-- Whether a decimal leaves no remainder. -/
def dividesDecimal (a b : Decimal) : Except Crash Bool :=
  if b.coefficient = 0 then .error .arithmetic
  else
    match a.leavesRemainder? b with
    | some leaves => .ok !leaves
    | none => .error .arithmetic

/-- Whether a number is a multiple of another one. -/
def isMultiple (n divisor : Number) : Except Crash Bool :=
  match n, divisor with
  | n, .double d => dividesByDouble n d
  | .int a, .int b => if b = 0 then .error .division else .ok (a % b == 0)
  | .double x, d => do
    let y ← toDouble d
    if y.isZero then throw .division
    return (x.fmod y).isZero
  | .decimal a, .int b => dividesDecimal a (.ofInt b)
  | .decimal a, .decimal b => dividesDecimal a b
  | .int a, .decimal b => dividesDecimal (.ofInt a) b

end Reshape.Schema
