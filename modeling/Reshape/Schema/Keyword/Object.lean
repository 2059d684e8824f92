import Reshape.Schema.Keyword.Array

/-! Keywords on the members of objects. -/

namespace Reshape.Schema

def displayKeys (ks : List Key) : List String := ks.map Key.display

namespace Check

/-! ### Members and their schemas -/

/-- Applies the schemas of an object to the members of the same name. -/
def properties (c : Check) : Verdict :=
  c.onMembers fun es => do
    c.each (← entriesOf c.value) fun (k, s) =>
      match Entries.find? k es with
      | some v => c.part (.key k) s v
      | none => .ok .none

def patternProperties (c : Check) : Verdict :=
  c.onMembers fun es => do
    c.each (← entriesOf c.value) fun (p, s) => c.each es fun (k, v) => do
      if ← keyMatches (.ofKey p) k then c.part (.key k) s v else return .none

def propertyNames (c : Check) : Verdict :=
  c.onMembers fun es =>
    c.each es fun (k, _) => .ok (c.applyInside c.brief c.scope c.value (.ofKey k))

/-- Whether `properties` names a key. -/
def declares (c : Check) (k : Key) : Except Crash Bool :=
  match c.get? "properties", k with
  | none, _ => .ok false
  | some (.object ps), _ => .ok (Entries.has k ps)
  | some v, .text s => mentions s v
  | some _, _ => .error .wrongKind

/-- The alternatives that `patternProperties` gives for keys, as one pattern. -/
def joinedPattern (c : Check) : Except Crash String := do
  let patterns ← ((c.get? "patternProperties").map partsOf).getD (.ok [])
  return "|".intercalate (← patterns.mapM textOf)

/-- Whether no other keyword declares a key. -/
def isAdditional (c : Check) (pattern : String) (k : Key) : Except Crash Bool := do
  if ← c.declares k then return false
  else if pattern.isEmpty then return true
  else return !(← keyMatches (.text pattern) k)

/-- Members that no other keyword declares. -/
def additional (c : Check) (es : List (Key × Value)) : Except Crash (List (Key × Value)) := do
  let pattern ← c.joinedPattern
  es.filterM fun (k, _) => c.isAdditional pattern k

def failAdditional (c : Check) (extra : List Key) : Verdict := do
  let shown := displayKeys (sortedKeys extra)
  match c.get? "patternProperties" with
  | none => c.fail ("Additional properties are not allowed " ++ unexpected shown)
  | some v =>
    let patterns := sortedKeys ((← partsOf v).filterMap Value.toKey?)
    c.fail (", ".intercalate shown ++ (if shown.length = 1 then " does" else " do") ++
      " not match any of the regexes: " ++ ", ".intercalate (displayKeys patterns))

def additionalProperties (c : Check) : Verdict :=
  c.onMembers fun es => do
    let extra ← c.additional es
    if isObject c.value then c.each extra fun (k, v) => c.part (.key k) c.value v
    else if c.value.isTruthy || extra.isEmpty then return .none
    else c.failAdditional (extra.map Prod.fst)

/-! ### Required members -/

def required (c : Check) : Verdict :=
  c.onMembers fun es => do
    c.each (← partsOf c.value) fun name => do
      if ← hasMember es name then return .none
      else c.fail (name.display ++ " is a required property")

/-- Members that must be there because another one is. -/
def needs (c : Check) (es : List (Key × Value)) (k : Key) (names : List Value) : Verdict :=
  c.each names fun name => do
    if ← hasMember es name then return .none
    else c.fail (name.display ++ " is a dependency of " ++ k.display)

/-- Checks what depends on the members that are there. -/
def dependents (c : Check) (check : List (Key × Value) → Key → Value → Verdict) : Verdict :=
  c.onMembers fun es => do
    c.each (← entriesOf c.value) fun (k, d) =>
      if Entries.has k es then check es k d else .ok .none

def dependentRequired (c : Check) : Verdict :=
  c.dependents fun es k d => do c.needs es k (← partsOf d)

def dependentSchemas (c : Check) : Verdict := c.dependents fun _ _ d => c.here d

def dependencies (c : Check) : Verdict :=
  c.dependents fun es k d =>
    match d with
    | .array names => c.needs es k names
    | schema => c.here schema

end Check

end Reshape.Schema
