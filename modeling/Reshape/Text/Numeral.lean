import Reshape.Json.Numeral
import Reshape.Text.Blank
import Reshape.Text.Digit

/-! Numbers as people write them: white space around, a sign, digits of any script, and single
underscores between digits. -/

namespace Reshape.Text

/-- Digits of every script as ASCII digits, without white space at either end. -/
def plainDigits (s : String) : List Char :=
  (trimBoth isWhite s.toList).map fun c =>
    match digitValue? c with
    | some d => Char.ofNat (48 + d)
    | none => c

/-- Drops underscores; none when one does not stand between two digits. -/
def dropUnderscores : Option Char → List Char → Option (List Char)
  | _, [] => some []
  | before, '_' :: rest =>
    match before, rest with
    | some b, c :: _ =>
      if b.isDigit && c.isDigit then dropUnderscores (some '_') rest else none
    | _, _ => none
  | _, c :: rest => (dropUnderscores (some c) rest).map (c :: ·)

/-- A sign, and what follows it. -/
def takeSign : List Char → Bool × List Char
  | '-' :: rest => (true, rest)
  | '+' :: rest => (false, rest)
  | cs => (false, cs)

/-- A whole number of at most `Json.digitLimit` digits. -/
def readInteger? (s : String) : Option Int := do
  let (negative, body) := takeSign (plainDigits s)
  let ds ← dropUnderscores none body
  if ds.isEmpty || !ds.all Char.isDigit || ds.length > Json.digitLimit then none
  else
    let n : Int := Json.natOfDigits ds
    return if negative then -n else n

/-- The words for numbers that are not finite. -/
def specialDouble? (negative : Bool) (word : String) : Option Double :=
  if word = "inf" || word = "infinity" then some (.infinity negative)
  else if word = "nan" then some .nan
  else none

/-- A number with an optional fraction and exponent, to the nearest double. -/
def readDouble? (s : String) : Option Double := do
  let (negative, body) := takeSign (plainDigits s)
  match specialDouble? negative (String.ofList (body.map Char.toLower)) with
  | some d => return d
  | none =>
    let cs ← dropUnderscores none body
    let whole := cs.takeWhile Char.isDigit
    let rest := cs.dropWhile Char.isDigit
    let (fraction, rest) : List Char × List Char :=
      match rest with
      | '.' :: more => (more.takeWhile Char.isDigit, more.dropWhile Char.isDigit)
      | more => ([], more)
    if whole.isEmpty && fraction.isEmpty then none
    else
      let n : Json.Numeral := ⟨negative, whole, some fraction, none⟩
      match rest with
      | [] => return Json.nearestDouble n.toDecimal
      | _ =>
        match Json.readExponent rest with
        | some (e, []) => return Json.nearestDouble { n with exponent := some e }.toDecimal
        | _ => none

end Reshape.Text
