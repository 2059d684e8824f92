import Reshape.Json.Numeral
import Reshape.Pattern.Escape

/-! Quantifiers: how often the part before them may occur. -/

namespace Reshape.Pattern

/-- The first number of repetitions that cannot be asked for. -/
def repetitionLimit : Nat := 4294967295

structure Quantifier where
  least : Nat
  most : Option Nat

/-- A count of repetitions, if digits are given. -/
def countOf (ds : List Char) : Parsed (Option Nat) :=
  if ds.isEmpty then .ok none
  else if ds.length > Json.digitLimit then .error .tooLong
  else if natOf 10 ds ≥ repetitionLimit then .error .tooMany
  else .ok (natOf 10 ds)

/-- The digits of the bounds behind an opening brace, and what follows the closing one; none when
the brace is an ordinary character. -/
def braceDigits (cs : List Char) : Option (List Char × List Char × List Char) :=
  let least := cs.takeWhile Char.isDigit
  match cs.dropWhile Char.isDigit with
  | '\x7d' :: rest => if least.isEmpty then none else some (least, least, rest)
  | ',' :: more =>
    match more.dropWhile Char.isDigit with
    | '\x7d' :: rest => some (least, more.takeWhile Char.isDigit, rest)
    | _ => none
  | _ => none

/-- The bounds behind an opening brace. A single backslash that ends the pattern is seen before the
bounds are read. -/
def braceBounds (cs : List Char) : Parsed (Option (Quantifier × List Char)) :=
  match braceDigits cs with
  | none => .ok none
  | some (_, _, ['\\']) => .error .malformed
  | some (least, most, rest) => do
    let m ← countOf least
    let n ← countOf most
    return some (⟨m.getD 0, n⟩, rest)

def quantifier? : List Char → Parsed (Option (Quantifier × List Char))
  | '*' :: rest => .ok (some (⟨0, none⟩, rest))
  | '+' :: rest => .ok (some (⟨1, none⟩, rest))
  | '?' :: rest => .ok (some (⟨0, some 1⟩, rest))
  | '\x7b' :: rest => braceBounds rest
  | _ => .ok none

/-- Whether the bounds are in order. -/
def Quantifier.isValid (q : Quantifier) : Bool :=
  match q.most with
  | some most => q.least ≤ most
  | none => true

/-- A mode behind a quantifier: `?` changes no set of matches, `+` gives nothing back. -/
def takeMode : List Char → Bool × List Char
  | '?' :: rest => (false, rest)
  | '+' :: rest => (true, rest)
  | rest => (false, rest)

end Reshape.Pattern
