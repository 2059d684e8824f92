import Reshape.Schema.Validator
import Reshape.Tree.Bind
import Reshape.Tree.Compile

/-! Binders: a schema compiled into a tree of bind nodes and a validator. Binding a document gives
the value of the tree, validated; when nothing is bound there is nothing to validate. -/

namespace Reshape

/-- Where a schema comes from. -/
inductive SchemaSource
  | text (s : String)
  | bytes (b : Text.Bytes)
  | mapping (entries : List (Key × Value))

namespace SchemaSource

def compileFault (reason : CompileReason) : Failure := .fault (.compile reason none)

def jsonFailure : Json.Fault → Failure
  | .tooDeep => .crash .tooDeep
  | f => compileFault (.malformed f)

/-- The root of a schema, which is an object. -/
def entries : SchemaSource → Outcome (List (Key × Value))
  | .mapping es => .ok es
  | .text s => do root (← (Json.parseText .nearest s).mapError jsonFailure)
  | .bytes b => do root (← (Json.parseBytes .nearest b).mapError jsonFailure)
where
  root : Value → Outcome (List (Key × Value))
    | .object es => .ok es
    | v => .error (compileFault (.root v.kind))

end SchemaSource

/-! ### Binders -/

structure Binder where
  root : Node
  registry : Registry
  settings : Settings
  validator : Option Schema.Validator

namespace Binder

def invalidSchema : Failure :=
  SchemaSource.compileFault (.invalid "it is not a schema of its dialect")

/-- Checks a schema's form, then compiles its tree. -/
def compile (source : SchemaSource) (s : Settings) (r : Registry) : Outcome Binder := do
  let schema := Value.object (← source.entries)
  let declared ← (Schema.declaredDialect? schema).mapError .crash
  let dialect := declared.getD s.dialect
  if !(← (Schema.isSchema dialect schema).mapError .crash) then throw invalidSchema
  let root ← Tree.compile schema r s
  if !s.validateOutput then return ⟨root, r, s, none⟩
  let validator ← (Schema.Validator.ofSchema dialect s.keyword false schema).mapError .crash
  return ⟨root, r, s, some validator⟩

/-- Checks a value; a binder without a validator cannot. -/
def validate (b : Binder) (v : Value) : Outcome Unit :=
  match b.validator with
  | none => .error (.crash .missingAttribute)
  | some x => do
    match ← (x.validate v).mapError .crash with
    | some r => throw (.fault (.output r.message (Schema.pathText r.path)))
    | none => return ()

/-- The value of a run, validated if anything is bound. -/
def conclude (b : Binder) (e : Extraction) : Outcome Extraction := do
  if !e.2 then return (.null, false)
  if b.validator.isSome then b.validate e.1
  return (e.1, true)

/-- Binds a document. -/
def bind (b : Binder) (raw : Text.Bytes) (token : Option CancelToken) :
    Outcome Extraction × Session :=
  let cache := Cache.ofDocument raw b.registry.representations
  let (r, s) := Tree.bind token b.root (.ofCache cache)
  (r.bind b.conclude, s)

end Binder

end Reshape
