import Reshape.JsonPath.Token
import Reshape.Value

/-! Expressions of JSONPath. A path finds matches. An operand of arithmetic is a literal or a path;
what a path is compared with is a literal or a singular path, which finds one match at most. -/

namespace Reshape.JsonPath

inductive Arithmetic
  | add
  | sub
  | mul
  deriving DecidableEq, Repr

inductive SingularStep
  | name (s : String)
  | item (n : Int)
  deriving DecidableEq, Repr

/-- What a path is compared with. A singular path starts at the root or at the item in question. -/
inductive Comparand
  | literal (v : Value)
  | singular (fromRoot : Bool) (steps : List SingularStep)

mutual

inductive Expr
  | root
  | this
  | parent
  | fields (names : List String)
  | wildcard
  | indices (ns : List Int)
  | slice (start stop step : Option Int)
  | child (left right : Expr)
  | descendants (left right : Expr)
  | whereHas (left right : Expr)
  | whereNot (left right : Expr)
  | union (left right : Expr)
  | intersect (left right : Expr)
  | filter (c : Condition)
  | sorted
  | sortedBy (keys : List (Expr × Bool))
  | length
  | keys
  | arithmetic (op : Arithmetic) (left right : Operand)

inductive Operand
  | literal (v : Value)
  | path (e : Expr)

inductive Condition
  | found (e : Expr)
  | missing (e : Expr)
  | compare (e : Expr) (c : Comparison) (right : Comparand)
  | both (left right : Condition)
  | either (left right : Condition)

end

/-- A path of one bare name stands for the name itself when it is an operand. -/
def Operand.ofPath : Expr → Operand
  | .fields [name] => .literal (.text name)
  | e => .path e

/-! ### Origin -/

mutual

/-- Whether the first step of a path is the root. -/
def Expr.isRooted : Expr → Bool
  | .root => true
  | .child l _ | .descendants l _ | .whereHas l _ | .whereNot l _ | .union l _ | .intersect l _ =>
    l.isRooted
  | .arithmetic _ l _ => l.isRooted
  | _ => false

def Operand.isRooted : Operand → Bool
  | .literal _ => false
  | .path e => e.isRooted

end

/-! ### Depth -/

mutual

/-- How deep paths are nested in each other. What is applied to each match of another path counts
twice. -/
def Expr.depth : Expr → Nat
  | .child l r | .descendants l r | .whereHas l r | .whereNot l r =>
    max (l.depth + 1) (r.depth + 2)
  | .union l r => max l.depth r.depth + 1
  | .filter c => c.depth + 2
  | .sortedBy ks => depthOfKeys ks + 3
  | .arithmetic _ l r => max l.depth r.depth + 1
  | _ => 1

def Operand.depth : Operand → Nat
  | .literal _ => 0
  | .path e => e.depth

def Condition.depth : Condition → Nat
  | .found e | .missing e | .compare e _ _ => e.depth + 1
  | .both l r | .either l r => max l.depth r.depth + 1

def depthOfKeys : List (Expr × Bool) → Nat
  | [] => 0
  | (e, _) :: rest => max e.depth (depthOfKeys rest)

end

end Reshape.JsonPath
