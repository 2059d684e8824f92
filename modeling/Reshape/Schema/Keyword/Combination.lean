import Reshape.Schema.Keyword.Scalar

/-! Keywords that combine schemas or refer to them. -/

namespace Reshape.Schema

namespace Check

/-! ### Combinations -/

def allOf (c : Check) : Verdict := do c.each (← partsOf c.value) c.here

/-- Tries schemas until one is satisfied: that one and those behind it, or every violation. -/
def firstSatisfied (c : Check) :
    List Value → Except Crash (List Violation ⊕ (Value × List Value))
  | [] => .ok (.inl [])
  | s :: rest => do
    match ← (c.applyInside false c.scope s c.subject).all with
    | [] => return .inr (s, rest)
    | vs =>
      match ← c.firstSatisfied rest with
      | .inl more => return .inl (vs ++ more)
      | .inr found => return .inr found

def failAll (c : Check) (context : List Violation) : Verdict :=
  c.failBecause (c.subject.display ++ " is not valid under any of the given schemas") context

def anyOf (c : Check) : Verdict := do
  match ← c.firstSatisfied (← partsOf c.value) with
  | .inl vs => c.failAll vs
  | .inr _ => return .none

def oneOf (c : Check) : Verdict := do
  match ← c.firstSatisfied (← partsOf c.value) with
  | .inl vs => c.failAll vs
  | .inr (first, rest) =>
    match ← rest.filterM fun s => c.satisfies s c.subject with
    | [] => return .none
    | more =>
      c.failInstance ("is valid under each of " ++
        ", ".intercalate (Value.displayItems (more ++ [first])))

def not (c : Check) : Verdict := do
  if ← c.satisfies c.value c.subject then
    c.failInstance ("should not be valid under " ++ c.value.display)
  else return .none

def conditional (c : Check) : Verdict := do
  let holds ← c.satisfies c.value c.subject
  ((c.get? (if holds then "then" else "else")).map c.here).getD (.ok .none)

/-! ### References -/

/-- A reference that leads nowhere inside of a resource is dead. -/
def dead : Crash → Crash
  | .reference .noResource => .reference .noResource
  | .reference _ => .deadReference
  | e => e

def ref (c : Check) : Verdict :=
  match c.value with
  | .text r => do
    let (schema, scope) ← (lookup c.policy.resources c.scope r).mapError dead
    return c.applyAt c.brief scope schema c.subject
  | _ => .error .missingAttribute

def recursiveRef (c : Check) : Verdict := do
  let (schema, scope) ← lookupRecursive c.policy.resources c.scope
  return c.applyAt c.brief scope schema c.subject

end Check

end Reshape.Schema
