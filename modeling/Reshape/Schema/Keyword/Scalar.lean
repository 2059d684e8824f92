import Reshape.Pattern.Search
import Reshape.Schema.Check
import Reshape.Schema.Multiple

/-! Keywords on values as a whole, on numbers, on texts, and on sizes. -/

namespace Reshape.Schema

/-! ### Patterns -/

def patternCrash : Pattern.Fault → Crash
  | .malformed => .badPattern
  | .tooMany => .overflow
  | .tooLong | .contradictory => .badValue

def readPattern (s : String) : Except Crash Pattern.Expr :=
  (Pattern.parse s).mapError patternCrash

/-- Whether a text matches a pattern, which a value spells. -/
def textMatches (pattern : Value) (s : String) : Except Crash Bool := do
  return (← readPattern (← textOf pattern)).occurs s

/-- Whether a key matches a pattern. -/
def keyMatches (pattern : Value) : Key → Except Crash Bool
  | .text s => textMatches pattern s
  | _ => .error .wrongKind

namespace Check

/-! ### Keywords for any instance -/

/-- A text stands for a list that holds it alone. -/
def alternatives (c : Check) : Except Crash (List Value) :=
  match c.value with
  | .text s => .ok [.text s]
  | v => partsOf v

/-- The instance has one of the types named. -/
def type (c : Check) : Verdict := do
  let names ← c.alternatives
  c.failUnless (← names.anyM (hasTypeOf c.policy.dialect c.subject))
    ("is not of type " ++ ", ".intercalate (Value.displayItems names))

/-- The instance is one of the values given. -/
def enum (c : Check) : Verdict := do
  let options ← partsOf c.value
  c.failUnless (options.any fun v => Value.same .apart .everywhere v c.subject)
    ("is not one of " ++ c.value.display)

def const (c : Check) : Verdict :=
  if Value.same .apart .everywhere c.subject c.value then .ok .none
  else c.fail (c.value.display ++ " was expected")

/-! ### Numbers -/

/-- A violation where a number stands to the value as it must not. -/
def refuse (c : Check) (failed : Value → Value → Except Crash Bool) (text : String) : Verdict :=
  c.onNumber fun n => do
    if ← failed (.number n) c.value then c.failInstance (text ++ " of " ++ c.value.display)
    else return .none

def minimum (c : Check) : Verdict := c.refuse comesBefore "is less than the minimum"

def maximum (c : Check) : Verdict :=
  c.refuse (fun n bound => comesBefore bound n) "is greater than the maximum"

def exclusiveMinimum (c : Check) : Verdict :=
  c.refuse isWithin "is less than or equal to the minimum"

def exclusiveMaximum (c : Check) : Verdict :=
  c.refuse (fun n bound => isWithin bound n) "is greater than or equal to the maximum"

/-- Whether another keyword excludes the bound itself. -/
def excludes (c : Check) (keyword : String) : Bool :=
  ((c.get? keyword).map Value.isTruthy).getD false

def olderMinimum (c : Check) : Verdict :=
  if c.excludes "exclusiveMinimum" then c.exclusiveMinimum else c.minimum

def olderMaximum (c : Check) : Verdict :=
  if c.excludes "exclusiveMaximum" then c.exclusiveMaximum else c.maximum

def multipleOf (c : Check) : Verdict :=
  c.onNumber fun n => do
    match c.value.asNumber? with
    | some divisor =>
      c.failUnless (← isMultiple n divisor) ("is not a multiple of " ++ c.value.display)
    | none => throw .wrongKind

/-! ### Texts -/

def pattern (c : Check) : Verdict :=
  c.onText fun s => do
    c.failUnless (← textMatches c.value s) ("does not match " ++ c.value.display)

/-- A text that must be a pattern is one. Other formats are not checked. -/
def format (c : Check) : Verdict :=
  match c.value, c.subject with
  | .text "regex", .text s =>
    if c.policy.checksPatterns then
      match Pattern.parse s with
      | .error .malformed => c.failInstance "is not a 'regex'"
      | .error f => .error (patternCrash f)
      | .ok _ => .ok .none
    else .ok .none
  | _, _ => .ok .none

/-! ### Sizes -/

/-- Whether the value is the given bound. -/
def isBound (c : Check) (n : Int) : Bool := Value.same .asNumbers .nowhere c.value (.int n)

/-- A size is not below the value. -/
def atLeast (c : Check) (size : Nat) (text : String) : Verdict := do
  c.failUnless (!(← comesBefore (.int size) c.value))
    (if c.isBound 1 then "should be non-empty" else text)

/-- A size is not above the value. -/
def atMost (c : Check) (size : Nat) (text : String) : Verdict := do
  c.failUnless (!(← comesBefore c.value (.int size)))
    (if c.isBound 0 then "is expected to be empty" else text)

def minLength (c : Check) : Verdict := c.onText fun s => c.atLeast s.length "is too short"

def maxLength (c : Check) : Verdict := c.onText fun s => c.atMost s.length "is too long"

def minItems (c : Check) : Verdict := c.onItems fun vs => c.atLeast vs.length "is too short"

def maxItems (c : Check) : Verdict := c.onItems fun vs => c.atMost vs.length "is too long"

def minProperties (c : Check) : Verdict :=
  c.onMembers fun es => c.atLeast es.length "does not have enough properties"

def maxProperties (c : Check) : Verdict :=
  c.onMembers fun es => c.atMost es.length "has too many properties"

end Check

end Reshape.Schema
