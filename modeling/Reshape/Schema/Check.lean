import Reshape.Schema.Findings
import Reshape.Schema.Scope
import Reshape.Schema.TypeName

/-! A keyword under check, and what keywords have in common: how they report violations, and how
they apply the schemas inside of them. A schema that declares a dialect of its own is read in that
dialect, and all of its keywords count. -/

namespace Reshape.Schema

/-! ### Policies -/

/-- How schemas are read. -/
structure Policy where
  dialect : Dialect
  /-- A keyword that is not checked. -/
  ignored : Option String
  /-- Whether texts that must be patterns are checked to be some. -/
  checksPatterns : Bool
  resources : Resources

/-- The dialect that the value of `$schema` names, if it is known. -/
def namedDialect? : Value → Except Crash (Option Dialect)
  | .text s => do return Dialect.ofUri? (← Uri.normalized s)
  | .array _ | .object _ => .error .wrongKind
  | v => if v.isTruthy then .error .missingAttribute else .ok none

/-- The dialect that a schema declares, if it is known. -/
def declaredDialect? : Value → Except Crash (Option Dialect)
  | .bool _ => .ok none
  | v => do
    if !(← mentions "$schema" v) then return none
    match v.get? "$schema" with
    | some d => namedDialect? d
    | none => throw .wrongKind

/-- How a schema inside of another one is read. -/
def Policy.within (p : Policy) (schema : Value) : Except Crash Policy := do
  match ← declaredDialect? schema with
  | some d => return { p with dialect := d, ignored := none }
  | none => return p

/-! ### Application -/

/-- Applies a schema that is no truth value, briefly or in full, to an instance. The dialect is that
of the schema around it, and decides which of its keywords count. -/
abbrev Visit := Bool → Dialect → Policy → Scope → Value → Value → Findings

/-- What is needed to apply schemas. -/
structure Applier where
  policy : Policy
  visit : Visit
  /-- How often schemas may still be applied in each other. -/
  depth : Nat

/-- What no instance satisfies. -/
def refusal (v : Value) : Findings :=
  .single (.mk none ("False schema does not allow " ++ v.display) [] (.ok false) [])

namespace Applier

/-- Applies a schema where its scope is known. -/
def applyAt (a : Applier) (brief : Bool) (s : Scope) (schema v : Value) : Findings :=
  match schema with
  | .bool b => if b then .none else refusal v
  | _ => .ofResult do
    return a.visit brief a.policy.dialect (← a.policy.within schema) s schema v

/-- Applies a schema that stands in a scope. -/
def applyInside (a : Applier) (brief : Bool) (s : Scope) (schema v : Value) : Findings :=
  match schema with
  | .bool _ => a.applyAt brief s schema v
  | _ => .ofResult do return a.applyAt brief (← s.enter ⟨a.policy.dialect, schema⟩) schema v

/-- Whether a value satisfies a schema. -/
def accepts (a : Applier) (s : Scope) (schema v : Value) : Except Crash Bool := do
  let policy ← a.policy.within schema
  match schema with
  | .bool b => return b
  | _ => (a.visit true policy.dialect policy s schema v).isClean

end Applier

/-! ### Checks -/

/-- A keyword under check: the schema it stands in, its name and value, and the instance. -/
structure Check extends Applier where
  brief : Bool
  scope : Scope
  entries : List (Key × Value)
  keyword : String
  value : Value
  subject : Value

/-- What a keyword finds. -/
abbrev Verdict := Except Crash Findings

namespace Check

def get? (c : Check) (key : String) : Option Value := Entries.find? (.text key) c.entries

/-! ### Violations -/

/-- Whether the instance has the type that the schema asks for. -/
def typed (c : Check) : Except Crash Bool :=
  let test (name : Value) : Except Crash Bool :=
    (hasTypeOf c.policy.dialect c.subject name).mapError fun
      | .unknownType => .undefinedType
      | e => e
  match c.get? "type" with
  | none => .ok false
  | some (.text t) => test (.text t)
  | some v => do (← partsOf v).anyM test

/-- A violation with those that led to it. -/
def failBecause (c : Check) (message : String) (context : List Violation) : Verdict :=
  .ok (.single (.mk (some c.keyword) message [] c.typed context))

def fail (c : Check) (message : String) : Verdict := c.failBecause message []

/-- A violation that shows the instance before a text. -/
def failInstance (c : Check) (message : String) : Verdict :=
  c.fail (c.subject.display ++ " " ++ message)

def failUnless (c : Check) (ok : Bool) (message : String) : Verdict :=
  if ok then .ok .none else c.failInstance message

/-! ### Instances -/

/-- A check of the members of an object. -/
def onMembers (c : Check) (check : List (Key × Value) → Verdict) : Verdict :=
  match c.subject with
  | .object es => check es
  | _ => .ok .none

/-- A check of the items of an array. -/
def onItems (c : Check) (check : List Value → Verdict) : Verdict :=
  match c.subject with
  | .array items => check items
  | _ => .ok .none

def onNumber (c : Check) (check : Number → Verdict) : Verdict :=
  match c.subject with
  | .number n => check n
  | _ => .ok .none

def onText (c : Check) (check : String → Verdict) : Verdict :=
  match c.subject with
  | .text s => check s
  | _ => .ok .none

/-! ### Schemas -/

def each {α : Type} (c : Check) (xs : List α) (find : α → Verdict) : Verdict :=
  .ok (Findings.forEach c.brief find xs)

/-- Applies a schema to the instance itself. -/
def here (c : Check) (schema : Value) : Verdict :=
  .ok (c.applyInside c.brief c.scope schema c.subject)

/-- Applies a schema to a part of the instance. Where nothing is allowed, the violation is one of
the instance. -/
def part (c : Check) (step : Step) (schema v : Value) : Verdict :=
  match schema with
  | .bool _ => .ok (c.applyInside c.brief c.scope schema v)
  | _ => .ok ((c.applyInside c.brief c.scope schema v).under step)

/-- Whether a value satisfies a schema. -/
def satisfies (c : Check) (schema v : Value) : Except Crash Bool := c.accepts c.scope schema v

/-- Applies a schema to items from a place on. -/
def itemsFrom (c : Check) (start : Nat) (schema : Value) (items : List Value) : Verdict :=
  c.each ((items.drop start).zipIdx start) fun (v, i) => c.part (.index i) schema v

/-- Applies schemas to the items at the same places. -/
def itemsByPlace (c : Check) (schemas items : List Value) : Verdict :=
  c.each (items.zip schemas).zipIdx fun ((v, s), i) => c.part (.index i) s v

end Check

end Reshape.Schema
