/-! IEEE 754 double precision numbers as exact data. A finite double is `± mantissa * 2 ^ exponent`.
Every operation works on the exact rational value and rounds once, to the nearest double, a tie
going to the even mantissa; nothing depends on the machine's floating point unit. -/

namespace Reshape

/-- A double precision number. The finite numbers that `ofRatio` builds have either the least
exponent `-1074`, or a mantissa of exactly 53 bits. -/
inductive Double
  | nan
  | infinity (negative : Bool)
  | finite (negative : Bool) (mantissa : Nat) (exponent : Int)
  deriving DecidableEq, Repr, Inhabited

namespace Double

/-- The least exponent: one unit in the last place of a subnormal number. -/
def leastExponent : Int := -1074

/-- The greatest exponent of a finite number. -/
def greatestExponent : Int := 971

def zero (negative : Bool) : Double := .finite negative 0 leastExponent

/-- `num / den` to the nearest natural number, a tie going to the even neighbour. -/
def divEven (num den : Nat) : Nat :=
  let q := num / den
  let r := num % den
  if 2 * r < den then q else if 2 * r > den then q + 1 else q + q % 2

/-- `num / den * 2 ^ shift` as a quotient of naturals. -/
def scaled (num den : Nat) (shift : Int) : Nat × Nat :=
  if shift ≥ 0 then (num * Nat.pow 2 shift.toNat, den) else (num, den * Nat.pow 2 (-shift).toNat)

/-- The exponent at which `num / den` has a mantissa of 53 bits, or the least one. -/
def exponentOf (num den : Nat) : Int :=
  let guess : Int := (num.log2 : Int) - den.log2 - 52
  let (n, d) := scaled num den (-guess)
  max leastExponent (if n / d < Nat.pow 2 52 then guess - 1 else guess)

/-- The double nearest to `± num / den`. -/
def ofRatio (negative : Bool) (num den : Nat) : Double :=
  if num = 0 then zero negative
  else
    let e := exponentOf num den
    let (n, d) := scaled num den (-e)
    let m := divEven n d
    let (m, e) := if m = Nat.pow 2 53 then (Nat.pow 2 52, e + 1) else (m, e)
    if e > greatestExponent then .infinity negative else .finite negative m e

def isNegative : Double → Bool
  | .nan => false
  | .infinity n => n
  | .finite n _ _ => n

def isNan : Double → Bool
  | .nan => true
  | _ => false

def isFinite : Double → Bool
  | .finite _ _ _ => true
  | _ => false

def isZero : Double → Bool
  | .finite _ m _ => m == 0
  | _ => false

def neg : Double → Double
  | .nan => .nan
  | .infinity n => .infinity (!n)
  | .finite n m e => .finite (!n) m e

def abs : Double → Double
  | .nan => .nan
  | .infinity _ => .infinity false
  | .finite _ m e => .finite false m e

/-- The magnitude `m * 2 ^ e` as a quotient of naturals. -/
def magnitude (m : Nat) (e : Int) : Nat × Nat := scaled m 1 e

/-- The exact value of a finite double: a signed numerator over a positive denominator. -/
def ratio? : Double → Option (Int × Nat)
  | .finite n m e =>
    let (a, b) := magnitude m e
    some (if n then -(a : Int) else a, b)
  | _ => none

/-- The double nearest to an integer, if it is not beyond the greatest finite one. -/
def ofInt? (n : Int) : Option Double :=
  match ofRatio (n < 0) n.natAbs 1 with
  | .infinity _ => none
  | d => some d

/-- The exact quotient of two integers, rounded. -/
def ofQuotient (num : Int) (den : Nat) : Double := ofRatio (num < 0) num.natAbs den

def add : Double → Double → Double
  | .nan, _ | _, .nan => .nan
  | .infinity a, .infinity b => if a = b then .infinity a else .nan
  | .infinity a, _ => .infinity a
  | _, .infinity b => .infinity b
  | x@(.finite a _ _), y@(.finite b _ _) =>
    match x.ratio?, y.ratio? with
    | some (p, q), some (r, s) =>
      let n := p * s + r * q
      if n = 0 then zero (a && b) else ofQuotient n (q * s)
    | _, _ => .nan

def sub (x y : Double) : Double := x.add y.neg

def mul : Double → Double → Double
  | .nan, _ | _, .nan => .nan
  | .infinity a, .infinity b => .infinity (a != b)
  | .infinity a, .finite b m _ => if m = 0 then .nan else .infinity (a != b)
  | .finite a m _, .infinity b => if m = 0 then .nan else .infinity (a != b)
  | .finite a m e, .finite b n f =>
    let (p, q) := scaled (m * n) 1 (e + f)
    ofRatio (a != b) p q

/-- Quotient; the divisor is taken to be other than zero. -/
def div : Double → Double → Double
  | .nan, _ | _, .nan => .nan
  | .infinity _, .infinity _ => .nan
  | .infinity a, .finite b _ _ => .infinity (a != b)
  | .finite a _ _, .infinity b => zero (a != b)
  | .finite a m e, .finite b n f =>
    if n = 0 then .nan
    else
      let (p, q) := scaled m n (e - f)
      ofRatio (a != b) p q

/-- Greatest integer not above a finite double. -/
def floor? (x : Double) : Option Int := x.ratio?.map fun (p, q) => p.fdiv q

/-- Least integer not below a finite double. -/
def ceil? (x : Double) : Option Int := x.ratio?.map fun (p, q) => -((-p).fdiv q)

/-- The remainder of `x / y` with the sign of `y`, for finite `x` and `y` other than zero. -/
def fmod : Double → Double → Double
  | x@(.finite _ _ _), y@(.finite b _ _) =>
    match x.ratio?, y.ratio? with
    | some (p, q), some (r, s) =>
      if r = 0 then .nan
      else
        let n := (p * s).fmod (r * q)
        if n = 0 then zero b else ofQuotient n (q * s)
    | _, _ => .nan
  | x@(.finite a m _), .infinity b => if m = 0 then zero b else if a = b then x else .infinity b
  | _, _ => .nan

/-- Whether a double is a whole number. -/
def isWhole (x : Double) : Bool :=
  match x.ratio? with
  | some (p, q) => p % q == 0
  | none => false

end Double

end Reshape
