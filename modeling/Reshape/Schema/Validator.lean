import Reshape.Schema.Keyword

/-! Validation. Keywords are checked in the order in which the schema holds them; each yields its
violations in the order of the instance or of its own value. A keyword may be left out; other
keywords may still look at its value. A schema is itself an instance of the schema of its
dialect. -/

namespace Reshape.Schema

/-! ### Application -/

/-- The keywords of a schema that count. Next to a reference, numbered dialects see nothing else. -/
def applicable (d : Dialect) : Value → Except Crash (List (Key × Value))
  | .object es =>
    match d.isDated, Entries.find? "$ref" es with
    | true, _ | false, none | false, some .null => .ok es
    | false, some r => .ok [("$ref", r)]
  | _ => .error .missingAttribute

/-- Checks one keyword of a schema. -/
def checkKeyword (c : Check) : Verdict :=
  if c.policy.ignored = some c.keyword then .ok .none
  else ((Keyword.rules c.policy.dialect).lookup c.keyword).elim (.ok .none) fun rule => rule c

/-- Applies a schema to an instance; `depth` bounds how often schemas are applied in each other. -/
def apply : Nat → Visit
  | 0 => fun _ _ _ _ _ _ => .stopped .tooDeep
  | depth + 1 => fun brief around policy scope schema v => .ofResult do
    let es ← applicable around schema
    let entries ← entriesOf schema
    return Findings.forEach brief (fun (k, x) =>
      match k with
      | .text keyword =>
        checkKeyword ⟨⟨policy, apply depth, depth⟩, brief, scope, entries, keyword, x, v⟩
      | _ => .ok .none) es

/-- Schemas may be applied in each other this deep. -/
def depthLimit : Nat := 490

/-! ### Validators -/

/-- A schema that values are checked against. -/
structure Validator where
  schema : Value
  policy : Policy
  scope : Scope

namespace Validator

/-- A validator that leaves out a keyword, if one is given. -/
def ofSchema (d : Dialect) (ignored : Option String) (checksPatterns : Bool) (schema : Value) :
    Except Crash Validator := do
  let r : Resource := ⟨d, schema⟩
  let uri ← Library.rootUri r
  return ⟨schema, ⟨d, ignored, checksPatterns, .ofResource uri r⟩, ⟨uri, false, []⟩⟩

def findings (x : Validator) (brief : Bool) (v : Value) : Findings :=
  apply depthLimit brief x.policy.dialect x.policy x.scope x.schema v

/-- What is wrong with a value, if anything is. -/
def validate (x : Validator) (v : Value) : Except Crash (Option Report) :=
  (x.findings false v).report

end Validator

/-- Whether a value is a schema of a dialect. -/
def isSchema (d : Dialect) (v : Value) : Except Crash Bool := do
  return ← ((← Validator.ofSchema d none true (Meta.document d)).findings true v).isClean

end Reshape.Schema
