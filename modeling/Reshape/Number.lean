import Reshape.Decimal.Shortest

/-! Numbers of a document: whole numbers of any size, doubles and decimals. They are compared by
their exact values, whatever their kinds. -/

namespace Reshape

inductive Number
  | int (n : Int)
  | double (d : Double)
  | decimal (d : Decimal)
  deriving DecidableEq, Repr, Inhabited

namespace Number

/-- The exact value, if the number is finite. -/
def exactValue? : Number → Option Decimal
  | .int n => some (.ofInt n)
  | .double d => Decimal.ofDouble? d
  | .decimal d => some d

/-- Order by exact value; infinities lie beyond every finite number, NaN is in no order. -/
def compare? : Number → Number → Option Ordering
  | .double .nan, _ | _, .double .nan => none
  | .int a, .int b => some (compare a b)
  | .double (.infinity a), .double (.infinity b) =>
    some (if a = b then .eq else if a then .lt else .gt)
  | .double (.infinity a), _ => some (if a then .lt else .gt)
  | _, .double (.infinity b) => some (if b then .gt else .lt)
  | a, b =>
    match a.exactValue?, b.exactValue? with
    | some x, some y => some (x.compare y)
    | _, _ => none

/-- Equality of value: `1`, `1.0` and the decimal `1.00` are one number. -/
def same (a b : Number) : Bool := a.compare? b == some .eq

def lt (a b : Number) : Bool := a.compare? b == some .lt

def le (a b : Number) : Bool := a.lt b || a.same b

def isZero : Number → Bool
  | .int n => n == 0
  | .double d => d.isZero
  | .decimal d => d.coefficient == 0

end Number

/-! ### Text -/

/-- Where positional notation ends and how a number is then laid out. -/
structure NumeralLayout where
  /-- The least power of ten of a leading digit that is written positionally. -/
  least : Int
  /-- The first power of ten that is not. -/
  limit : Int
  /-- What follows a whole number in positional notation. -/
  wholeTail : String
  /-- The mark before an exponent. -/
  mark : String
  /-- The least number of exponent digits. -/
  exponentDigits : Nat

/-- Doubles: positional from `1e-04` up to `1e+16`, always with a point or an exponent. -/
def NumeralLayout.double : NumeralLayout := ⟨-4, 16, ".0", "e", 2⟩

/-- Zeros, then `n` in decimal digits. -/
def padded (width n : Nat) : String :=
  let ds := Decimal.digits n
  String.ofList (List.replicate (width - ds.length) '0' ++ ds)

def NumeralLayout.exponent (l : NumeralLayout) (e : Int) : String :=
  l.mark ++ (if e < 0 then "-" else "+") ++ padded l.exponentDigits e.natAbs

/-- Digits with a point after the first `point` of them, zeros filling up on either side. -/
def placePoint (ds : List Char) (point : Int) (wholeTail : String) : String :=
  if point ≤ 0 then
    "0." ++ String.ofList (List.replicate (-point).toNat '0' ++ ds)
  else if ds.length ≤ point.toNat then
    String.ofList (ds ++ List.replicate (point.toNat - ds.length) '0') ++ wholeTail
  else
    String.ofList (ds.take point.toNat) ++ "." ++ String.ofList (ds.drop point.toNat)

/-- One digit, a point, the other digits, an exponent. -/
def NumeralLayout.scientific (l : NumeralLayout) (ds : List Char) (lead : Int) : String :=
  (match ds with
    | [] => ""
    | [d] => String.singleton d
    | d :: rest => String.ofList (d :: '.' :: rest)) ++ l.exponent lead

def NumeralLayout.write (l : NumeralLayout) (coefficient : Nat) (exponent : Int) : String :=
  let ds := Decimal.digits coefficient
  let lead := exponent + ds.length - 1
  if l.least ≤ lead && lead < l.limit then placePoint ds (lead + 1) l.wholeTail
  else l.scientific ds lead

/-- The shortest digits that read back, in the layout of doubles. -/
def Double.text : Double → String
  | .nan => "nan"
  | .infinity n => if n then "-inf" else "inf"
  | .finite n m e =>
    (if n then "-" else "") ++
      (if m = 0 then "0.0"
       else
        let (c, p) := Decimal.shortest m e
        NumeralLayout.double.write c p)

/-- Digits and exponent as given: plain when the exponent is not positive and the number is not
smaller than a millionth, else scientific. -/
def Decimal.text (d : Decimal) : String :=
  let ds := digits d.coefficient
  let lead := d.adjusted
  let layout : NumeralLayout := ⟨-6, 0, "", "E", 1⟩
  (if d.negative then "-" else "") ++
    (if d.exponent ≤ 0 && layout.least ≤ lead then
      (if d.exponent = 0 then String.ofList ds else placePoint ds (lead + 1) layout.wholeTail)
    else layout.scientific ds lead)

def Number.text : Number → String
  | .int n => toString n
  | .double d => d.text
  | .decimal d => d.text

end Reshape
