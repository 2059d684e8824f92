import Reshape.Schema.Keyword.Scalar

/-! Keywords on the items of arrays. -/

namespace Reshape.Schema

/-- What of an instance is not as it should be. -/
def blamed (shown : List String) (why : String) : String :=
  "(" ++ ", ".intercalate shown ++ (if shown.length = 1 then " was " else " were ") ++ why ++ ")"

def unexpected (shown : List String) : String := blamed shown "unexpected"

/-! ### Distinct items -/

/-- Numbers by value, truth values apart from them. -/
def isSame (v w : Value) : Bool := Value.same .apart .everywhere v w

/-- No two values are equal. -/
def allDistinct : List Value → Bool
  | [] => true
  | v :: rest => !rest.any (isSame v) && allDistinct rest

/-- No two values that follow each other are equal. -/
def neighboursDistinct : List Value → Bool
  | v :: w :: rest => !isSame v w && neighboursDistinct (w :: rest)
  | _ => true

/-- The order of items; a truth value has no place in it. -/
def itemBefore : Value → Value → Except OrderFault Bool
  | .bool _, _ | _, .bool _ => .error .unordered
  | v, w => v.before w

/-- No two items are equal. Items that are in order are compared with their neighbours in it. -/
def areDistinct (items : List Value) : Except Crash Bool :=
  match Sequence.sort itemBefore items with
  | .ok sorted => .ok (neighboursDistinct sorted)
  | .error .unordered => .ok (allDistinct items)
  | .error .undefined => .error .arithmetic

namespace Check

def uniqueItems (c : Check) : Verdict :=
  c.onItems fun items => do
    if !c.value.isTruthy then return .none
    c.failUnless (← areDistinct items) "has non-unique elements"

/-! ### Items and their schemas -/

/-- Items each under its own schema, or all under one object. -/
def oldestItems (c : Check) : Verdict :=
  c.onItems fun items => do
    if isObject c.value then c.itemsFrom 0 c.value items
    else c.itemsByPlace (← partsOf c.value) items

/-- Items each under its own schema, or all under one. -/
def olderItems (c : Check) : Verdict :=
  c.onItems fun items =>
    match c.value with
    | .array schemas => c.itemsByPlace schemas items
    | schema => c.itemsFrom 0 schema items

/-- Items behind those that have schemas of their own. -/
def additionalItems (c : Check) : Verdict :=
  c.onItems fun items =>
    match c.get? "items" with
    | none | some (.object _) => .ok .none
    | some schemas => do
      let start ← lengthOf schemas
      if isObject c.value then c.itemsFrom start c.value items
      else if !c.value.isTruthy && items.length > start then
        c.fail ("Additional items are not allowed " ++
          unexpected (Value.displayItems (items.drop start)))
      else return .none

def prefixItems (c : Check) : Verdict :=
  c.onItems fun items => do c.itemsByPlace (← partsOf c.value) items

/-- Items behind the prefix. -/
def laterItems (c : Check) : Verdict :=
  c.onItems fun items => do
    let start ← ((c.get? "prefixItems").map lengthOf).getD (.ok 0)
    let extra := items.drop start
    if extra.isEmpty then return .none
    else if isFalse c.value then
      let shown := match extra with
        | [v] => v.display
        | vs => (Value.array vs).display
      c.fail ("Expected at most " ++ toString start ++ (if start = 1 then " item" else " items") ++
        " but found " ++ toString extra.length ++ " extra: " ++ shown)
    else c.itemsFrom start c.value items

/-! ### Containment -/

/-- How many items satisfy a schema, or that more than a bound do. -/
def countSatisfying (c : Check) (most : Value) : Nat → List Value → Except Crash (Option Nat)
  | n, [] => .ok (some n)
  | n, v :: rest => do
    if ← c.satisfies c.value v then
      if ← comesBefore most (.int (n + 1)) then return none
      else countSatisfying c most (n + 1) rest
    else countSatisfying c most n rest

/-- A violation of another keyword of the same schema. -/
def failOf (c : Check) (keyword message : String) : Verdict := { c with keyword }.fail message

/-- As many items satisfy a schema as two other keywords ask for; without them at least one. -/
def contains (c : Check) : Verdict :=
  c.onItems fun items => do
    let _ ← c.policy.within c.value
    let least := (c.get? "minContains").getD (.int 1)
    let most := (c.get? "maxContains").getD (.int items.length)
    match ← c.countSatisfying most 0 items with
    | none =>
      c.failOf "maxContains"
        ("Too many items match the given schema (expected at most " ++ most.display ++ ")")
    | some n =>
      if !(← comesBefore (.int n) least) then return .none
      else if n = 0 then c.failInstance "does not contain items matching the given schema"
      else
        c.failOf "minContains" ("Too few items match the given schema (expected at least " ++
          least.display ++ " but only " ++ toString n ++ " matched)")

/-- At least one item satisfies a schema. -/
def olderContains (c : Check) : Verdict :=
  c.onItems fun items => do
    if ← items.anyM (c.satisfies c.value) then return .none
    else c.fail ("None of " ++ c.subject.display ++ " are valid under the given schema")

end Check

end Reshape.Schema
