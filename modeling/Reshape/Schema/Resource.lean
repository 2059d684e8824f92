import Reshape.Dialect
import Reshape.Schema.Reading

/-! Resources: schemas that references can lead to. A dialect says which member of a schema names
it, which ones name places in it, and which ones hold further schemas. -/

namespace Reshape.Schema

/-- A schema and the dialect in which its names are read. -/
structure Resource where
  dialect : Dialect
  contents : Value
  deriving Inhabited

/-- A named place. A dynamic one gives way to a place of the same name further out. -/
structure Anchor where
  name : String
  isDynamic : Bool
  place : Resource

/-- Without the number signs at its end. -/
def withoutMark (s : String) : String :=
  String.ofList (s.toList.reverse.dropWhile (· == '#')).reverse

/-! ### Holders -/

/-- The keywords under which a dialect's schemas hold schemas. -/
structure Holders where
  /-- One schema. -/
  single : List String
  /-- Schemas in a list. -/
  listed : List String
  /-- Schemas under names. -/
  named : List String
  /-- A schema if it is an object. -/
  optional : List String
  /-- One schema, or several in a list or under names. -/
  mixed : List String

namespace Holders

def combinations : List String := ["allOf", "anyOf", "oneOf"]

def maps : List String := ["definitions", "patternProperties", "properties"]

def additions : List String := ["additionalItems", "additionalProperties"]

def older : List String := ["items", "dependencies"]

def sixth : List String := additions ++ ["contains", "not", "propertyNames"]

def conditions : List String := ["else", "if", "then"]

def dated : List String :=
  ["additionalProperties", "contains", "contentSchema", "not", "propertyNames",
    "unevaluatedItems", "unevaluatedProperties"] ++ conditions

def datedMaps : List String := ["$defs", "dependentSchemas"] ++ maps

def of : Dialect → Holders
  | .draft3 => ⟨[], ["extends"], maps, additions, older⟩
  | .draft4 => ⟨["not"], combinations, maps, additions, older⟩
  | .draft6 => ⟨sixth, combinations, maps, [], older⟩
  | .draft7 => ⟨sixth ++ conditions, combinations, maps, [], older⟩
  | .draft2019 => ⟨"additionalItems" :: dated, combinations, datedMaps, [], ["items"]⟩
  | .draft2020 => ⟨"items" :: dated, "prefixItems" :: combinations, datedMaps, [], []⟩

def find (h : Holders) (es : List (Key × Value)) (keys : Holders → List String) : List Value :=
  (keys h).filterMap fun k => Entries.find? (.text k) es

/-- Schemas in a list, or one. -/
def itemsOf : Value → List Value
  | .null => []
  | .array items => items
  | .text s => s.toList.map fun c => .text (String.singleton c)
  | v => [v]

/-- Schemas under names, the first of which must be an object. -/
def dependenciesOf : Value → Except Crash (List Value)
  | .null => .ok []
  | v => do
    let values := (← entriesOf v).map Prod.snd
    return if (values.head?.map isObject).getD false then values else []

/-- The schemas under keywords that hold one or several. -/
def findMixed (h : Holders) (es : List (Key × Value)) : Except Crash (List Value) := do
  let under (key : String) : Value :=
    if h.mixed.contains key then (Entries.find? (.text key) es).getD .null else .null
  return itemsOf (under "items") ++ (← dependenciesOf (under "dependencies"))

/-- The schemas that a schema holds. -/
def schemasIn (h : Holders) (es : List (Key × Value)) : Except Crash (List Value) := do
  let listed ← (h.find es listed).mapM partsOf
  let named ← (h.find es named).mapM entriesOf
  return h.find es single ++ listed.flatten ++ named.flatten.map Prod.snd ++
    (← h.findMixed es) ++ (h.find es optional).filter isObject

end Holders

/-! ### Resources -/

namespace Resource

/-- The member that names a schema. -/
def idKey (d : Dialect) : String := if d.isOldest then "id" else "$id"

/-- The member that names a schema, if there is one; a number sign at its end does not count. -/
def givenIdentifier? (d : Dialect) (es : List (Key × Value)) : Except Crash (Option String) :=
  match Entries.find? (.text (idKey d)) es with
  | none | some .null => .ok none
  | some (.text s) => .ok (some s)
  | some _ => .error .missingAttribute

/-- The identifier of a schema. In numbered dialects one next to a reference does not count, nor
one that is only a fragment. -/
def identifier? (r : Resource) : Except Crash (Option String) :=
  match r.contents with
  | .bool _ => if r.dialect.isOldest then .error .wrongKind else .ok none
  | v => do
    if !r.dialect.isDated then
      if ← mentions "$ref" v then return none
    let given ← givenIdentifier? r.dialect (← entriesOf v)
    return (given.filter fun s => r.dialect.isDated || !s.startsWith "#").map withoutMark

/-- A place that a member names, if the member can be a name. -/
def anchorAt (r : Resource) (es : List (Key × Value)) (isDynamic : Bool) (key : String) :
    Except Crash (List Anchor) :=
  match Entries.find? (.text key) es with
  | some (.text s) => .ok [⟨s, isDynamic, r⟩]
  | some (.array _) | some (.object _) => .error .wrongKind
  | _ => .ok []

/-- A place that an identifier names which is only a fragment. -/
def anchorInIdentifier (r : Resource) (es : List (Key × Value)) : Except Crash (List Anchor) :=
  match Entries.find? (.text (idKey r.dialect)) es with
  | none => .ok []
  | some (.text s) =>
    match s.toList with
    | '#' :: name => .ok [⟨String.ofList name, false, r⟩]
    | _ => .ok []
  | some _ => .error .missingAttribute

/-- The places that a schema names by itself. -/
def anchors (r : Resource) : Except Crash (List Anchor) :=
  match r.contents with
  | .bool _ => .ok []
  | .object es =>
    match r.dialect with
    | .draft2019 => r.anchorAt es false "$anchor"
    | .draft2020 => do
      return (← r.anchorAt es false "$anchor") ++ (← r.anchorAt es true "$dynamicAnchor")
    | _ => r.anchorInIdentifier es
  | _ => .error .missingAttribute

/-- A schema inside of another one, which may declare a dialect of its own. -/
def inside (d : Dialect) (v : Value) : Except Crash Resource :=
  match v.get? "$schema" with
  | none | some .null => .ok ⟨d, v⟩
  | some (.text s) => .ok ⟨(Dialect.ofUri? (withoutMark s)).getD d, v⟩
  | some _ => .error .missingAttribute

/-- The schemas that a schema holds. -/
def parts (r : Resource) : Except Crash (List Resource) :=
  match r.contents with
  | .object es => do ((Holders.of r.dialect).schemasIn es >>= List.mapM (inside r.dialect))
  | _ => .ok []

end Resource

end Reshape.Schema
