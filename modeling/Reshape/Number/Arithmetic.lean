import Reshape.Number

/-! Arithmetic on numbers of mixed kinds. Whole numbers stay exact; with a double the other operand
becomes a double; with a decimal a whole number becomes a decimal. A double and a decimal do not
mix. -/

namespace Reshape.Number

inductive ArithmeticFault
  | overflow
  | mixed
  | range
  deriving DecidableEq, Repr

abbrev Computed := Except ArithmeticFault Number

/-- An operation on each kind of number. -/
structure Operation where
  ints : Int → Int → Int
  doubles : Double → Double → Double
  decimals : Decimal → Decimal → Option Decimal

def addition : Operation := ⟨(· + ·), Double.add, Decimal.add?⟩

def subtraction : Operation := ⟨(· - ·), Double.sub, Decimal.sub?⟩

def multiplication : Operation := ⟨(· * ·), Double.mul, Decimal.mul?⟩

def asDouble (n : Int) : Except ArithmeticFault Double :=
  match Double.ofInt? n with
  | some d => .ok d
  | none => .error .overflow

def ofDecimal : Option Decimal → Computed
  | some d => .ok (.decimal d)
  | none => .error .range

def Operation.apply (o : Operation) : Number → Number → Computed
  | .int a, .int b => .ok (.int (o.ints a b))
  | .double a, .double b => .ok (.double (o.doubles a b))
  | .int a, .double b => do return .double (o.doubles (← asDouble a) b)
  | .double a, .int b => do return .double (o.doubles a (← asDouble b))
  | .decimal a, .decimal b => ofDecimal (o.decimals a b)
  | .int a, .decimal b => ofDecimal (o.decimals (.ofInt a) b)
  | .decimal a, .int b => ofDecimal (o.decimals a (.ofInt b))
  | .double _, .decimal _ | .decimal _, .double _ => .error .mixed

/-- The sum from the left, starting with the whole number 0. -/
def sum (ns : List Number) : Computed := ns.foldlM addition.apply (.int 0)

def abs : Number → Number
  | .int n => .int n.natAbs
  | .double d => .double d.abs
  | .decimal d => .decimal { d with negative := false }

end Reshape.Number
