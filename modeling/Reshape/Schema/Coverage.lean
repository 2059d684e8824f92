import Reshape.Schema.Keyword.Object

/-! The parts of an instance that the keywords of a schema, and of the schemas that apply beside it,
cover; and the keywords on what is left. The two dated dialects look for them in ways of their own:
the older one counts what a keyword names, the later one what satisfies it. -/

namespace Reshape.Schema

/-- A schema's surroundings, in which it is looked through for what it covers of an instance. -/
structure Coverage extends Applier where
  /-- The dialect of the schema that asks. -/
  dialect : Dialect
  scope : Scope
  subject : Value

namespace Coverage

/-- How a schema is looked through. -/
abbrev Search (α : Type) := Coverage → Value → Except Crash (List α)

variable {α : Type}

def isSatisfied (c : Coverage) (schema v : Value) : Except Crash Bool :=
  (c.applyInside true c.scope schema v).isClean

def optional (c : Coverage) (search : Search α) (schema : Option Value) : Except Crash (List α) :=
  (schema.map (search c)).getD (.ok [])

/-! ### Schemas beside a schema -/

/-- What the schema covers that a reference leads to. -/
def referred (c : Coverage) (search : Search α) (found : Value × Scope) :
    Except Crash (List α) := do
  let policy ← c.policy.within found.1
  search { c with policy, scope := found.2 } found.1

def followed (c : Coverage) (search : Search α) : Option Value → Except Crash (List α)
  | none | some .null => .ok []
  | some (.text r) => do c.referred search (← lookup c.policy.resources c.scope r)
  | some _ => .error .missingAttribute

/-- What is covered through the references of a schema. -/
def references (c : Coverage) (search : Search α) (es : List (Key × Value)) :
    Except Crash (List α) := do
  let direct ← c.followed search (Entries.find? "$ref" es)
  if c.dialect = .draft2020 then
    return direct ++ (← c.followed search (Entries.find? "$dynamicRef" es))
  else if Entries.has "$recursiveRef" es then
    return direct ++ (← c.referred search (← lookupRecursive c.policy.resources c.scope))
  else return direct

/-- What is covered by those of several schemas that the instance satisfies. -/
def combined (c : Coverage) (search : Search α) (es : List (Key × Value)) :
    Except Crash (List α) := do
  let found ← ["allOf", "oneOf", "anyOf"].mapM fun key =>
    match Entries.find? (.text key) es with
    | none => .ok []
    | some schemas => do
      return (← (← partsOf schemas).mapM fun s => do
        if ← c.isSatisfied s c.subject then search c s else return []).flatten
  return found.flatten

/-- What a condition covers, and what follows from it. -/
def conditional (c : Coverage) (search : Search α) (es : List (Key × Value)) :
    Except Crash (List α) :=
  match Entries.find? "if" es with
  | none => .ok []
  | some condition => do
    if ← c.accepts c.scope condition c.subject then
      return (← search c condition) ++ (← c.optional search (Entries.find? "then" es))
    else c.optional search (Entries.find? "else" es)

/-! ### Items -/

def items (c : Coverage) : List Value :=
  match c.subject with
  | .array items => items
  | _ => []

def allPlaces (c : Coverage) : List Nat := List.range c.items.length

/-- The places of items that satisfy a schema. -/
def placesOf (c : Coverage) (schema : Option Value) : Except Crash (List Nat) :=
  match schema with
  | none => .ok []
  | some s => do
    return (← c.items.zipIdx.filterM fun (v, _) => c.accepts c.scope s v).map Prod.snd

/-- The places of the items that a schema covers, apart from what its own kind of `items` does. -/
def placesBeside (c : Coverage) (search : Search Nat) (es : List (Key × Value)) :
    Except Crash (List Nat) := do
  let conditional ← c.conditional search es
  let contained ← c.placesOf (Entries.find? "contains" es)
  let unevaluated ← c.placesOf (Entries.find? "unevaluatedItems" es)
  return conditional ++ contained ++ unevaluated ++ (← c.combined search es)

/-- The places that a list of schemas takes up. -/
def leading (schemas : Option Value) : Except Crash (List Nat) := do
  return List.range (← (schemas.map lengthOf).getD (.ok 0))

/-- The places that `items` covers if it leaves none to other keywords. -/
def coversAll (c : Coverage) (es : List (Key × Value)) : Bool :=
  match Entries.find? "items" es with
  | none => false
  | some schema =>
    c.dialect = .draft2020 || Entries.has "additionalItems" es || isObject schema

/-- The places of the items that a schema covers. -/
def places : Nat → Search Nat
  | 0, _, _ => .error .tooDeep
  | depth + 1, c, .object es => do
    if c.dialect = .draft2020 && c.coversAll es then return c.allPlaces
    let referred ← c.references (places depth) es
    if c.coversAll es then return c.allPlaces
    let leader := if c.dialect = .draft2020 then "prefixItems" else "items"
    let first ← leading (Entries.find? (.text leader) es)
    return referred ++ first ++ (← c.placesBeside (places depth) es)
  | _, _, .bool _ => .ok []
  | _, c, .null | _, c, .number _ =>
    .error (if c.dialect = .draft2020 then .wrongKind else .missingAttribute)
  | _, _, _ => .error .missingAttribute

/-! ### Members -/

def members (c : Coverage) : List (Key × Value) :=
  match c.subject with
  | .object es => es
  | _ => []

def allKeys (c : Coverage) : List Key := c.members.map Prod.fst

/-- The keys of members that satisfy a schema. -/
def keysOf (c : Coverage) (schema : Option Value) : Except Crash (List Key) :=
  match schema with
  | none | some .null => .ok []
  | some s => do
    return (← c.members.filterM fun (_, v) => c.isSatisfied s v).map Prod.fst

/-- The keys of an object, or every key if the schema always holds. -/
def keysNamed (c : Coverage) : Option Value → List Key
  | some (.object ps) => ps.map Prod.fst
  | some (.bool true) => c.allKeys
  | _ => []

/-- The keys that the keywords on members cover. -/
def keysOfMembers (c : Coverage) (es : List (Key × Value)) : Except Crash (List Key) := do
  let get (key : String) : Option Value := Entries.find? (.text key) es
  if c.dialect = .draft2020 then
    let named := match get "properties" with
      | some (.object ps) => ps.map Prod.fst
      | _ => []
    return named ++ (← c.keysOf (get "additionalProperties")) ++
      (← c.keysOf (get "unevaluatedProperties"))
  else
    return c.keysNamed (get "properties") ++ c.keysNamed (get "additionalProperties") ++
      c.keysNamed (get "unevaluatedProperties")

/-- The keys that match a pattern. -/
def keysMatching (c : Coverage) (es : List (Key × Value)) : Except Crash (List Key) :=
  match Entries.find? "patternProperties" es with
  | none => .ok []
  | some patterns =>
    c.allKeys.filterM fun k => do
      return (← (← partsOf patterns).mapM fun p => keyMatches p k).any id

/-- The keys that schemas cover which depend on a member. -/
def keysDependent (c : Coverage) (search : Search Key) (es : List (Key × Value)) :
    Except Crash (List Key) :=
  match Entries.find? "dependentSchemas" es with
  | none => .ok []
  | some schemas => do
    return (← (← entriesOf schemas).mapM fun (k, s) =>
      if Entries.has k c.members then search c s else .ok []).flatten

/-- The keys of the members that a schema covers. -/
def keys : Nat → Search Key
  | 0, _, _ => .error .tooDeep
  | depth + 1, c, .object es => do
    let search := keys depth
    let own := (← c.references search es) ++ (← c.keysOfMembers es) ++ (← c.keysMatching es) ++
      (← c.keysDependent search es)
    return own ++ (← c.combined search es) ++ (← c.conditional search es)
  | _, _, .bool _ => .ok []
  | _, _, _ => .error .missingAttribute

end Coverage

/-! ### Keywords -/

namespace Check

def coverage (c : Check) : Coverage := ⟨c.toApplier, c.policy.dialect, c.scope, c.subject⟩

def unevaluatedItems (c : Check) : Verdict :=
  c.onItems fun items => do
    let covered ← Coverage.places c.depth c.coverage (.object c.entries)
    let rest := (items.zipIdx.filter fun (_, i) => !covered.contains i).map Prod.fst
    if rest.isEmpty then return .none
    else c.fail ("Unevaluated items are not allowed " ++ unexpected (Value.displayItems rest))

/-- A key for each violation of the schema by a member that no keyword covers. -/
def uncovered (c : Check) (covered : List Key) (es : List (Key × Value)) :
    Except Crash (List Key) := do
  let found ← es.mapM fun (k, v) => do
    if covered.contains k then return []
    else return (← (c.applyInside false c.scope c.value v).all).map fun _ => k
  return found.flatten

def unevaluatedProperties (c : Check) : Verdict :=
  c.onMembers fun es => do
    let rest ← c.uncovered (← Coverage.keys c.depth c.coverage (.object c.entries)) es
    if rest.isEmpty then return .none
    else if isFalse c.value then
      c.fail ("Unevaluated properties are not allowed " ++
        unexpected (displayKeys (sortedKeys rest)))
    else
      c.fail ("Unevaluated properties are not valid under the given schema " ++
        blamed (displayKeys rest) "unevaluated and invalid")

end Check

end Reshape.Schema
