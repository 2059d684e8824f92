import Reshape.JsonPath.Expr

/-! Parsing of the conditions in JSONPath filters. `&&`, and `&` behind a comparison, bind tighter
than `||`. Parentheses around a bare path belong to the path; `!` stands before a path only. -/

namespace Reshape.JsonPath

/-- How paths are parsed: one from its start, and the rest of one whose first part is known. -/
structure PathParser where
  path : List Token → Option (Expr × List Token)
  behind : Expr → List Token → Option (Expr × List Token)

/-- The right hand side of a comparison that is no path. -/
def literal? : Token → Option Value
  | .quoted s => some (.text s)
  | .whole n => some (.int n)
  | .fraction d => some (.double d)
  | .name "true" => some (.bool true)
  | .name "false" => some (.bool false)
  | .name "null" => some .null
  | .name s => some (.text s)
  | _ => none

def nameStep? : Token → Option SingularStep
  | .name s => some (.name s)
  | .quoted s => some (.name s)
  | _ => none

/-- What stands in the brackets of a singular path: no bare word that is a literal elsewhere. -/
def bracketStep? : Token → Option SingularStep
  | .whole n => some (.item n)
  | .name "true" | .name "false" | .name "null" => none
  | t => nameStep? t

/-- The steps of a singular path. -/
def singularSteps : List Token → List SingularStep × List Token
  | .dot :: t :: rest =>
    match nameStep? t with
    | some s =>
      let (ss, rest) := singularSteps rest
      (s :: ss, rest)
    | none => ([], .dot :: t :: rest)
  | .lbracket :: t :: .rbracket :: rest =>
    match bracketStep? t with
    | some s =>
      let (ss, rest) := singularSteps rest
      (s :: ss, rest)
    | none => ([], .lbracket :: t :: .rbracket :: rest)
  | ts => ([], ts)

def comparand : List Token → Option (Comparand × List Token)
  | .root :: rest =>
    let (ss, rest) := singularSteps rest
    some (.singular true ss, rest)
  | .this :: rest =>
    let (ss, rest) := singularSteps rest
    some (.singular false ss, rest)
  | t :: rest => (literal? t).map fun v => (.literal v, rest)
  | [] => none

/-- A bare path may still turn out to be part of a longer one. -/
inductive Clause
  | path (e : Expr)
  | condition (c : Condition)

def Clause.toCondition : Clause → Condition
  | .path e => .found e
  | .condition c => c

/-- A path, alone or compared with something. -/
def compared (e : Expr) : List Token → Option (Clause × List Token)
  | .compare c :: rest =>
    (comparand rest).map fun (r, rest) => (.condition (.compare e c r), rest)
  | ts => some (.path e, ts)

mutual

/-- Clauses joined by `||`. -/
def disjunction (p : PathParser) : Nat → List Token → Option (Clause × List Token)
  | 0, _ => none
  | depth + 1, ts => do
    let (c, ts) ← conjunction p depth ts
    moreEither p depth c ts

def moreEither (p : PathParser) : Nat → Clause → List Token → Option (Clause × List Token)
  | 0, _, _ => none
  | depth + 1, c, ts =>
    match ts with
    | .either :: rest => do
      let (d, ts) ← conjunction p depth rest
      moreEither p depth (.condition (.either c.toCondition d.toCondition)) ts
    | _ => some (c, ts)

/-- Clauses joined by `&&` or `&`. -/
def conjunction (p : PathParser) : Nat → List Token → Option (Clause × List Token)
  | 0, _ => none
  | depth + 1, ts => do
    let (c, ts) ← clause p depth ts
    moreBoth p depth c ts

def moreBoth (p : PathParser) : Nat → Clause → List Token → Option (Clause × List Token)
  | 0, _, _ => none
  | depth + 1, c, ts =>
    match ts with
    | .both :: rest | .intersect :: rest => do
      let (d, ts) ← clause p depth rest
      moreBoth p depth (.condition (.both c.toCondition d.toCondition)) ts
    | _ => some (c, ts)

/-- A path with `!` before it, a clause in parentheses, or a path that may be compared. -/
def clause (p : PathParser) : Nat → List Token → Option (Clause × List Token)
  | 0, _ => none
  | depth + 1, ts =>
    match ts with
    | .not :: rest => (p.path rest).map fun (e, ts) => (.condition (.missing e), ts)
    | .lparen :: rest => do
      match ← disjunction p depth rest with
      | (.path e, .rparen :: rest) =>
        let (e, ts) ← p.behind e rest
        compared e ts
      | (c, .rparen :: rest) => return (c, rest)
      | _ => none
    | _ => do
      let (e, ts) ← p.path ts
      compared e ts

end

/-- A condition up to the closing bracket. -/
def condition (p : PathParser) (ts : List Token) : Option (Condition × List Token) := do
  let (c, ts) ← disjunction p (4 * ts.length + 4) ts
  return (c.toCondition, ts)

end Reshape.JsonPath
