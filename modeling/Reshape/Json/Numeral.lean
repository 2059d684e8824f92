import Reshape.Number

/-! Numerals: an integer part, a fraction and an exponent. A numeral with a fraction or an exponent
is read as the nearest double or as the exact decimal that it spells. -/

namespace Reshape.Json

/-- The digits of a numeral. A missing fraction or exponent part is absent, not empty. -/
structure Numeral where
  negative : Bool
  whole : List Char
  fraction : Option (List Char)
  exponent : Option Int
  deriving DecidableEq, Repr

/-- The most digits that an integer may have. -/
def digitLimit : Nat := 4300

/-- The number that decimal digits spell. -/
def natOfDigits (ds : List Char) : Nat := ds.foldl (fun n d => 10 * n + (d.toNat - 48)) 0

namespace Numeral

def isWhole (n : Numeral) : Bool := n.fraction.isNone && n.exponent.isNone

/-- Every digit before the exponent. -/
def significand (n : Numeral) : List Char := n.whole ++ n.fraction.getD []

/-- The power of ten of the last digit. -/
def scale (n : Numeral) : Int := n.exponent.getD 0 - (n.fraction.getD []).length

def toInt (n : Numeral) : Int :=
  let m := natOfDigits n.whole
  if n.negative then -(m : Int) else m

def toDecimal (n : Numeral) : Decimal := ⟨n.negative, natOfDigits n.significand, n.scale⟩

end Numeral

/-- The double nearest to a decimal. Beyond `1e+400` and below `1e-400` the size alone decides. -/
def nearestDouble (d : Decimal) : Double :=
  if d.coefficient = 0 then Double.zero d.negative
  else if d.adjusted > 400 then .infinity d.negative
  else if d.adjusted < -400 then Double.zero d.negative
  else if d.exponent ≥ 0 then
    Double.ofRatio d.negative (d.coefficient * Nat.pow 10 d.exponent.toNat) 1
  else Double.ofRatio d.negative d.coefficient (Nat.pow 10 (-d.exponent).toNat)

/-! ### Reading -/

/-- An exponent part, if the letter is followed by digits. -/
def readExponent (cs : List Char) : Option (Int × List Char) :=
  match cs with
  | e :: rest =>
    if e = 'e' || e = 'E' then
      let (negative, rest) : Bool × List Char :=
        match rest with
        | '-' :: more => (true, more)
        | '+' :: more => (false, more)
        | more => (false, more)
      let ds := rest.takeWhile Char.isDigit
      if ds.isEmpty then none
      else
        let n : Int := natOfDigits ds
        some (if negative then -n else n, rest.dropWhile Char.isDigit)
    else none
  | [] => none

/-- A fraction part, if the point is followed by digits. -/
def readFraction (cs : List Char) : Option (List Char × List Char) :=
  match cs with
  | '.' :: rest =>
    let ds := rest.takeWhile Char.isDigit
    if ds.isEmpty then none else some (ds, rest.dropWhile Char.isDigit)
  | _ => none

/-- The longest numeral at the start of a text. -/
def readNumeral (cs : List Char) : Option (Numeral × List Char) :=
  let (negative, body) : Bool × List Char :=
    match cs with
    | '-' :: more => (true, more)
    | more => (false, more)
  let whole : Option (List Char × List Char) :=
    match body with
    | '0' :: rest => some (['0'], rest)
    | _ =>
      let ds := body.takeWhile Char.isDigit
      if ds.isEmpty then none else some (ds, body.dropWhile Char.isDigit)
  match whole with
  | none => none
  | some (ds, rest) =>
    let (fraction, rest) :=
      match readFraction rest with
      | some (f, more) => (some f, more)
      | none => (none, rest)
    match readExponent rest with
    | some (e, more) => some (⟨negative, ds, fraction, some e⟩, more)
    | none => some (⟨negative, ds, fraction, none⟩, rest)

end Reshape.Json
