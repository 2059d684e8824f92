import Reshape.Settings
import Reshape.Tree

/-! Compiling a schema. A position of the schema contributes a node if it holds a directive or if a
position below it does, reached through `properties` or through an array of `items` or
`prefixItems`. A position without a directive is a mapping or a sequence by its keys. Directives are
checked on the way down, families and expressions on the way up. -/

namespace Reshape.Tree

/-- The directive of a position, split; it must be a text. -/
def directiveOf (r : Registry) (s : Settings) (es : List (Key × Value)) (path : String) :
    Outcome (Option Directive) :=
  match Entries.find? (.text s.keyword) es with
  | none => .ok none
  | some (.text d) => .ok (some (Directive.splitIn r d s.defaultFamily))
  | some _ => .error (.fault (.compile (.directive s.keyword) (some path)))

/-- How many positional items a position has, if it has an array of them. -/
def itemCount? (es : List (Key × Value)) : Option Nat :=
  match Entries.find? (.text "items") es, Entries.find? (.text "prefixItems") es with
  | some (.array items), _ => some items.length
  | _, some (.array items) => some items.length
  | _, _ => none

def hasProperties (es : List (Key × Value)) : Bool := Entries.has (.text "properties") es

def hasArray (key : String) (es : List (Key × Value)) : Bool :=
  match Entries.find? (.text key) es with
  | some (.array _) => true
  | _ => false

/-- The directive that the keys of a position stand for. -/
def inferred (es : List (Key × Value)) : Directive :=
  if hasProperties es then ⟨"map", ""⟩
  else ⟨"slice", toString ((itemCount? es).getD 0)⟩

/-- A family's strategy; a rejected expression is reported at its position. -/
def strategyAt (r : Registry) (d : Directive) (path : String) : Outcome Strategy :=
  if !r.contains d.family then .error (.fault (.unsupportedFamily d.family (some path)))
  else
    match r.create d.family d.expression with
    | .error (.fault (.invalidExpression f e reason _)) =>
      .error (.fault (.invalidExpression f e reason (some path)))
    | o => o

def namedPath (path : String) (name : Key) : String := path ++ "." ++ name.inPath

def indexedPath (path : String) (i : Nat) : String := path ++ "[" ++ toString i ++ "]"

def namedChildren (nodes : List (Key × Node)) : Children :=
  if nodes.isEmpty then .leaf else .named nodes

def indexedChildren (slots : List (Option Node)) : Children :=
  if slots.all Option.isNone then .leaf else .indexed slots

/-- The node of a position, if it contributes one. -/
def assemble (r : Registry) (path : String) (es : List (Key × Value)) (directive : Option Directive)
    (children : Children) : Outcome (Option Node) :=
  match directive, children with
  | none, .leaf => .ok none
  | some d, c => do return some (.mk path (← strategyAt r d path) c)
  | none, c => do return some (.mk path (← strategyAt r (inferred es) path) c)

mutual

def compileNode (r : Registry) (s : Settings) : Value → String → Outcome (Option Node)
  | .object es, path => do
    let directive ← directiveOf r s es path
    let children ←
      if hasProperties es then properties r s es path
      else if hasArray "items" es then items r s "items" es path
      else items r s "prefixItems" es path
    assemble r path es directive children
  | _, _ => .ok none

/-- The children under the key `properties`. -/
def properties (r : Registry) (s : Settings) : List (Key × Value) → String → Outcome Children
  | [], _ => .ok .leaf
  | (k, v) :: rest, path =>
    if k = .text "properties" then
      match v with
      | .object ps => do return namedChildren (← compileNamed r s ps path)
      | _ => .ok .leaf
    else properties r s rest path

def compileNamed (r : Registry) (s : Settings) :
    List (Key × Value) → String → Outcome (List (Key × Node))
  | [], _ => .ok []
  | (k, v) :: rest, path => do
    let node ← compileNode r s v (namedPath path k)
    let nodes ← compileNamed r s rest path
    return (node.map (k, ·)).toList ++ nodes

/-- The children under a key that holds an array. -/
def items (r : Registry) (s : Settings) (key : String) :
    List (Key × Value) → String → Outcome Children
  | [], _ => .ok .leaf
  | (k, v) :: rest, path =>
    if k = .text key then
      match v with
      | .array vs => do return indexedChildren (← compileItems r s vs path 0)
      | _ => .ok .leaf
    else items r s key rest path

def compileItems (r : Registry) (s : Settings) :
    List Value → String → Nat → Outcome (List (Option Node))
  | [], _, _ => .ok []
  | v :: rest, path, i => do
    let node ← compileNode r s v (indexedPath path i)
    let nodes ← compileItems r s rest path (i + 1)
    return node :: nodes

end

def rootPath : String := "$"

/-- Compiles a whole schema; one that binds nothing gives an absent root. -/
def compile (schema : Value) (r : Registry) (s : Settings) : Outcome Node := do
  if !r.contains s.defaultFamily then
    .error (.fault (.unsupportedFamily s.defaultFamily none))
  else
    match ← compileNode r s schema rootPath with
    | some n => return n
    | none => return .mk rootPath .absent .leaf

end Reshape.Tree
