import Reshape.JsonPath.Bracket
import Reshape.JsonPath.Condition

/-! Parsing of JSONPath. Among the operators that join paths, those further down bind tighter: `..`,
`.`, `|`, `&`, `where`, `wherenot`; operators of one kind group to the left. A bracket applies to
everything joined before it, and so does a filter, which never begins a path, behind `..`.
Arithmetic is weaker than all of them and groups to the right, but a number that ends an operation
closes it. -/

namespace Reshape.JsonPath

/-- How tightly a token joins two paths. -/
def power? : Token → Option Nat
  | .descend => some 1
  | .dot => some 2
  | .union => some 3
  | .intersect => some 4
  | .whereHas => some 5
  | .whereNot => some 6
  | _ => none

def join : Token → Expr → Expr → Expr
  | .descend => .descendants
  | .union => .union
  | .intersect => .intersect
  | .whereHas => .whereHas
  | .whereNot => .whereNot
  | _ => .child

def namedOperator : String → Option Expr
  | "this" => some .this
  | "parent" => some .parent
  | "len" => some .length
  | "keys" => some .keys
  | "sorted" => some .sorted
  | _ => none

def arithmetic? : Token → Option Arithmetic
  | .plus => some .add
  | .minus => some .sub
  | .star => some .mul
  | _ => none

/-- The operator at the start of some tokens. -/
def operator? : List Token → Option (Arithmetic × List Token)
  | t :: rest => (arithmetic? t).map fun op => (op, rest)
  | [] => none

/-! ### Brackets -/

/-- Sort keys up to the closing bracket. -/
def sortKeys (p : PathParser) : Nat → List Token → Option (List (Expr × Bool) × List Token)
  | 0, _ => none
  | steps + 1, ts =>
    match ts with
    | .direction descending :: rest => do
      let (e, ts) ← p.path rest
      let (ks, ts) ← sortKeys p steps ts
      return ((e, descending) :: ks, ts)
    | _ => some ([], ts)

/-- A filter up to its closing bracket, behind the question mark. -/
def filter (p : PathParser) (ts : List Token) : Option (Expr × List Token) := do
  let (c, ts) ← condition p ts
  close (.filter c) ts

/-- What may stand in brackets behind a path: a filter and sort keys too. -/
def suffix (p : PathParser) (ts : List Token) : Option (Expr × List Token) :=
  match ts with
  | .question :: rest => filter p rest
  | .direction _ :: _ => do
    let (ks, ts) ← sortKeys p ts.length ts
    close (.sortedBy ks) ts
  | _ => plainBracket ts

/-! ### Arithmetic -/

/-- A number as an operand. -/
def number? : Token → Option Value
  | .whole n => some (.int n)
  | .fraction d => some (.double d)
  | _ => none

/-- Whether a number may close an operation: behind a number it must be of the same kind. -/
def closes : Operand → Token → Bool
  | .literal (.number (.int _)), .fraction _ => false
  | .literal (.number (.double _)), .whole _ => false
  | _, _ => true

/-- The number that closes an operation, unless an operator follows it. -/
def closing? (left : Operand) : List Token → Option (Value × List Token)
  | t :: rest =>
    if closes left t && (operator? rest).isNone then (number? t).map fun v => (v, rest) else none
  | [] => none

/-- An operation behind its operator: a number that closes it, or everything that follows. -/
def operation (p : PathParser) (op : Arithmetic) (left : Operand) (ts : List Token) :
    Option (Expr × List Token) :=
  match closing? left ts with
  | some (v, rest) => some (.arithmetic op left (.literal v), rest)
  | none => (p.path ts).map fun (e, ts) => (.arithmetic op left (.ofPath e), ts)

/-- A number with an operator behind it. -/
def numberThenOperator? : List Token → Option (Value × Arithmetic × List Token)
  | t :: rest => do
    let v ← number? t
    let (op, rest) ← operator? rest
    return (v, op, rest)
  | [] => none

/-! ### Paths -/

/-- A path without operators that join paths. A number alone is a name. -/
def primary (p : PathParser) (ts : List Token) : Option (Expr × List Token) :=
  match numberThenOperator? ts with
  | some (v, op, rest) => operation p op (.literal v) rest
  | none =>
    match ts with
    | .root :: rest => some (.root, rest)
    | .this :: rest => some (.this, rest)
    | .star :: rest => some (.wildcard, rest)
    | .whole n :: rest => some (.fields [toString n], rest)
    | .operator s :: rest => (namedOperator s).map fun e => (e, rest)
    | .lbracket :: rest => plainBracket rest
    | .lparen :: rest => do
      match ← p.path rest with
      | (e, .rparen :: rest) => return (e, rest)
      | _ => none
    | t :: rest => do
      let s ← nameOf? t
      let (ss, rest) := moreNames rest
      return (.fields (s :: ss), rest)
    | [] => none

/-- Extends a path by operators that bind tighter than `power`. -/
def climb (p : PathParser) : Nat → Nat → Expr → List Token → Option (Expr × List Token)
  | 0, _, _, _ => none
  | steps + 1, power, left, ts =>
    match ts with
    | t :: rest =>
      match power? t with
      | some q =>
        if power < q then do
          let (e, ts) ← primary p rest
          let (right, ts) ← climb p steps q e ts
          climb p steps power (join t left right) ts
        else some (left, ts)
      | none => some (left, ts)
    | [] => some (left, ts)

/-- Extends a path by everything that may follow it. -/
def extend (p : PathParser) : Nat → Expr → List Token → Option (Expr × List Token)
  | 0, _, _ => none
  | steps + 1, left, ts =>
    match ts, operator? ts with
    | _, some (op, rest) => do
      let (e, ts) ← operation p op (.ofPath left) rest
      extend p steps e ts
    | .lbracket :: rest, none => do
      let (e, ts) ← suffix p rest
      extend p steps (.child left e) ts
    | .descend :: .lbracket :: .question :: rest, none => do
      let (e, ts) ← filter p rest
      extend p steps (.descendants left e) ts
    | t :: rest, none =>
      match power? t with
      | some q => do
        let (e, ts) ← primary p rest
        let (right, ts) ← climb p (rest.length + 1) q e ts
        extend p steps (join t left right) ts
      | none => some (left, ts)
    | [], none => some (left, ts)

/-- Paths in which other paths are nested up to a depth. -/
def pathTo : Nat → PathParser
  | 0 => ⟨fun _ => none, fun _ _ => none⟩
  | depth + 1 =>
    { path := fun ts => do
        let (e, ts) ← primary (pathTo depth) ts
        extend (pathTo depth) (ts.length + 1) e ts
      behind := fun e ts => extend (pathTo depth) (ts.length + 1) e ts }

/-- The path that a text spells. -/
def parse (s : String) : Option Expr :=
  match tokens s with
  | none => none
  | some ts =>
    match (pathTo (ts.length + 1)).path ts with
    | some (e, []) => some e
    | _ => none

end Reshape.JsonPath
