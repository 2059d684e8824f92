import Reshape.Calendar
import Reshape.Json.Numeral

/-! Dates and points in time as scalars spell them. A date alone is known without a tag only if
month and day have two digits; with a time behind them one digit is enough. -/

namespace Reshape.Yaml

/-- The time of day in a scalar. The zone counts minutes east of universal time. -/
structure Clock where
  hour : Nat
  minute : Nat
  second : Nat
  fraction : List Char
  zone : Option Int

structure Stamp where
  year : Nat
  month : Nat
  day : Nat
  clock : Option Clock

namespace Stamp

/-- Between `least` and `most` digits. -/
def takeDigits (least most : Nat) (cs : List Char) : Option (Nat × List Char) :=
  let ds := (cs.take most).takeWhile Char.isDigit
  if ds.length < least then none else some (Json.natOfDigits ds, cs.drop ds.length)

def expect (c : Char) : List Char → Option (List Char)
  | x :: rest => if x = c then some rest else none
  | [] => none

def isBlank (c : Char) : Bool := c == ' ' || c == '\t'

def takeSeparator : List Char → Option (List Char)
  | 'T' :: rest | 't' :: rest => some rest
  | c :: rest => if isBlank c then some (rest.dropWhile isBlank) else none
  | [] => none

/-- Hours and perhaps minutes behind a sign. -/
def takeShift (cs : List Char) : Option (Nat × List Char) := do
  let (h, cs) ← takeDigits 1 2 cs
  match cs with
  | ':' :: rest =>
    let (m, rest) ← takeDigits 2 2 rest
    return (60 * h + m, rest)
  | _ => return (60 * h, cs)

/-- The zone, which ends the scalar. -/
def zone? (cs : List Char) : Option (Option Int) :=
  if cs.isEmpty then some none
  else
    match cs.dropWhile isBlank with
    | ['Z'] => some (some 0)
    | '+' :: rest =>
      match takeShift rest with
      | some (n, []) => some (some n)
      | _ => none
    | '-' :: rest =>
      match takeShift rest with
      | some (n, []) => some (some (-n))
      | _ => none
    | _ => none

def clock? (cs : List Char) : Option Clock := do
  let (hour, cs) ← takeDigits 1 2 (← takeSeparator cs)
  let (minute, cs) ← takeDigits 2 2 (← expect ':' cs)
  let (second, cs) ← takeDigits 2 2 (← expect ':' cs)
  let (fraction, cs) :=
    match cs with
    | '.' :: rest => (rest.takeWhile Char.isDigit, rest.dropWhile Char.isDigit)
    | _ => ([], cs)
  return ⟨hour, minute, second, fraction, ← zone? cs⟩

def ofChars? (cs : List Char) : Option Stamp := do
  let (year, r) ← takeDigits 4 4 cs
  let (month, r) ← takeDigits 1 2 (← expect '-' r)
  let (day, r) ← takeDigits 1 2 (← expect '-' r)
  if r.isEmpty then return ⟨year, month, day, none⟩
  else return ⟨year, month, day, some (← clock? r)⟩

/-- Whether a scalar without a tag is one. -/
def isPlain (cs : List Char) : Bool :=
  match ofChars? cs with
  | some s => s.clock.isSome || cs.length == 10
  | none => false

/-- The first six digits of a fraction. -/
def micros (fraction : List Char) : Nat :=
  Json.natOfDigits ((fraction ++ List.replicate 6 '0').take 6)

end Stamp

end Reshape.Yaml
