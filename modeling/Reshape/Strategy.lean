import Reshape.JmesPath.Eval
import Reshape.JsonPath.Eval
import Reshape.Pointer
import Reshape.Text.Numeral

/-! Strategies: what a node of the output evaluates. A strategy turns a representation of the
document into a value and says whether the value was present; seeds make empty containers and are
never present. -/

namespace Reshape

/-- A value, and whether it was found. -/
abbrev Extraction := Value × Bool

/-- No match is absent, one match stands for itself, several are an array. -/
def shapeMatches : List Value → Extraction
  | [] => (.null, false)
  | [v] => (v, true)
  | vs => (.array vs, true)

inductive Method
  | absent
  | mapping
  | sequence (length : Nat)
  | jmesPath (query : JmesPath.Query)
  | jsonPath (path : JsonPath.Expr)
  | pointer (p : Pointer)
  | custom (run : Value → Outcome Extraction)

/-- A method, the family and expression it was made from, and the representation it reads. -/
structure Strategy where
  family : String
  expression : String
  representation : Option String
  method : Method

namespace Strategy

def absent : Strategy := ⟨"nil", "", none, .absent⟩

def mapping : Strategy := ⟨"map", "", none, .mapping⟩

def invalid (family expression reason : String) : Failure :=
  .fault (.invalidExpression family expression reason none)

/-- A sequence of as many nulls as the expression says. -/
def sequence (expression : String) : Outcome Strategy :=
  match Text.readInteger? expression with
  | none => .error (invalid "slice" expression "length must be an integer")
  | some n =>
    if n < 0 then .error (invalid "slice" expression "length must not be negative")
    else .ok ⟨"slice", expression, none, .sequence n.toNat⟩

def jmesPath (expression : String) : Outcome Strategy :=
  match JmesPath.parse expression with
  | .ok q => .ok ⟨"jmes", expression, some "json", .jmesPath q⟩
  | .error (.malformed d) => .error (invalid "jmes" expression d)
  | .error .tooManyDigits => .error (.crash .badValue)
  | .error .tooDeep => .error (.crash .tooDeep)

/-- A JSON path in a family that reads the given representation. -/
def jsonPath (family representation expression : String) : Outcome Strategy :=
  match JsonPath.parse expression with
  | some e => .ok ⟨family, expression, some representation, .jsonPath e⟩
  | none => .error (invalid family expression "not a path")

def pointer (expression : String) : Outcome Strategy :=
  match Pointer.parse expression with
  | .ok p => .ok ⟨"pointer", expression, some "json", .pointer p⟩
  | .error f => .error (invalid "pointer" expression f.message)

/-! ### Extraction -/

/-- A null result is no match; the result of a projection is a list of matches. -/
def jmesPathExtraction (q : JmesPath.Query) (result : Value) : Extraction :=
  match result with
  | .array items => if q.root.projects then shapeMatches items else (.array items, true)
  | .null => (.null, false)
  | v => (v, true)

def found : Option Value → Extraction
  | some v => (v, true)
  | none => (.null, false)

/-- Evaluates a representation of the document, which is null for a strategy that reads none. -/
def extract (s : Strategy) (document : Value) : Outcome Extraction :=
  match s.method with
  | .absent => .ok (.null, false)
  | .mapping => .ok (.object [], false)
  | .sequence n =>
    if n > Sequence.sizeLimit then .error (.crash .overflow)
    else if n > Sequence.memoryLimit then .error (.crash .memory)
    else .ok (.array (List.replicate n .null), false)
  | .jmesPath q =>
    match q.search document with
    | .ok v => .ok (jmesPathExtraction q v)
    | .error (.fault d) => .error (.fault (.extraction s.family s.expression d))
    | .error (.crash c) => .error (.crash c)
  | .jsonPath e =>
    match e.search document with
    | .ok vs => .ok (shapeMatches vs)
    | .error .unordered => .error (.fault (.extraction s.family s.expression "no common order"))
    | .error .lone => .error (.fault (.extraction s.family s.expression "no list of matches"))
    | .error (.crash c) => .error (.crash c)
  | .pointer p => .ok (found (p.resolve document))
  | .custom run => run document

end Strategy

end Reshape
