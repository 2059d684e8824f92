import Reshape.JmesPath.Token

/-! Expressions of JMESPath. -/

namespace Reshape.JmesPath

/-- An expression. `reference i` stands for the expression at place `i` of the query's table, left
unevaluated. -/
inductive Expr
  | current
  | field (name : String)
  | literal (v : Value)
  | index (n : Int)
  | slice (start stop step : Option Int)
  | indexed (parts : List Expr)
  | sub (parts : List Expr)
  | compare (c : Comparator) (left right : Expr)
  | flatten (base : Expr)
  | filterProjection (base condition right : Expr)
  | projection (base right : Expr)
  | valueProjection (base right : Expr)
  | list (items : List Expr)
  | hash (fields : List (String × Expr))
  | or (left right : Expr)
  | and (left right : Expr)
  | not (e : Expr)
  | pipe (left right : Expr)
  | call (function : String) (arguments : List Expr)
  | reference (index : Nat)
  deriving Repr, Inhabited

/-- Whether the result, if it is an array, is a list of matches. -/
def Expr.projects : Expr → Bool
  | .flatten _ => true
  | .filterProjection _ _ _ => true
  | .projection _ _ => true
  | .valueProjection _ _ => true
  | _ => false

/-- An expression with the table of expressions that it refers to. -/
structure Query where
  root : Expr
  table : List Expr
  deriving Repr

end Reshape.JmesPath
