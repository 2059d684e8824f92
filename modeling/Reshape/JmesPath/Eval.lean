import Reshape.JmesPath.Function
import Reshape.JmesPath.Parser
import Reshape.Sequence

/-! Evaluation of JMESPath. What does not fit, such as a field of an array, is null; projections
leave null out of their matches. -/

namespace Reshape.JmesPath

/-- The values that count as false. -/
def isFalse : Value → Bool
  | .null => true
  | .bool b => !b
  | .text s => s.isEmpty
  | .array items => items.isEmpty
  | .object es => es.isEmpty
  | _ => false

/-- Numbers and texts can be put in order. -/
def isComparable : Value → Bool
  | .number _ => true
  | .text _ => true
  | _ => false

def ordering (a b : Value) (test : Bool → Bool → Bool) : Result :=
  if isComparable a && isComparable b then do
    return .bool (test (← before a b) (← before b a))
  else .ok .null

/-- Equality keeps truth values and numbers apart, except inside arrays and objects. -/
def equal (a b : Value) : Bool :=
  match a, b with
  | .bool _, .number _ | .number _, .bool _ => false
  | _, _ => Value.same .asNumbers .inside a b

/-- Whether two numbers compare at all. -/
def isOrdered : Value → Value → Bool
  | .number a, .number b => (a.compare? b).isSome
  | _, _ => true

def compareValues (c : Comparator) (a b : Value) : Result :=
  match c with
  | .eq => .ok (.bool (equal a b))
  | .ne => .ok (.bool (!equal a b))
  | .lt => ordering a b fun lt _ => lt
  | .gt => ordering a b fun _ gt => gt
  | .le => ordering a b fun _ gt => !gt && isOrdered a b
  | .ge => ordering a b fun lt _ => !lt && isOrdered a b

def field (name : String) (v : Value) : Value := (v.get? name).getD .null

/-- An item counted from either end. -/
def item (n : Int) : Value → Value
  | .array items => (Sequence.at? items n).getD .null
  | _ => .null

def sliceOf (start stop step : Option Int) : Value → Result
  | .array items =>
    match Sequence.slice? items start stop step with
    | some part => .ok (.array part)
    | none => .error (.crash .badValue)
  | _ => .ok .null

/-- The results of a projection's right hand side, without null. -/
def project (right : Value → Result) : List Value → Except Stop (List Value)
  | [] => .ok []
  | v :: rest => do
    let r ← right v
    let rs ← project right rest
    return if r.isNull then rs else r :: rs

/-- The items that satisfy a condition, each put through the right hand side. -/
def projectIf (condition right : Value → Result) : List Value → Except Stop (List Value)
  | [] => .ok []
  | v :: rest => do
    if isFalse (← condition v) then projectIf condition right rest
    else
      let r ← right v
      let rs ← projectIf condition right rest
      return if r.isNull then rs else r :: rs

/-- Arrays among the items are replaced by their items. -/
def flattenItems (items : List Value) : List Value :=
  items.flatMap fun
    | .array inner => inner
    | v => [v]

/-- The results of expressions in a row, each on the result before it. -/
def chain (visit : Expr → Value → Result) : List Expr → Value → Result
  | [], v => .ok v
  | e :: es, v => do
    let r ← visit e v
    chain visit es r

def hashOf (visit : Expr → Value → Result) (v : Value) :
    List (String × Expr) → Except Stop (List (Key × Value))
  | [] => .ok []
  | (name, e) :: rest => do
    let r ← visit e v
    let rs ← hashOf visit v rest
    return (.text name, r) :: rs

/-- One step of evaluation; `visit` evaluates the parts and `refer` a referenced expression. -/
def evalWith (visit : Expr → Value → Result) (refer : Nat → Value → Result) (e : Expr) (v : Value) :
    Result :=
  match e with
  | .current => .ok v
  | .field name => .ok (field name v)
  | .literal w => .ok w
  | .index n => .ok (item n v)
  | .slice a b s => sliceOf a b s v
  | .indexed parts => chain visit parts v
  | .sub parts => chain visit parts v
  | .compare c l r => do compareValues c (← visit l v) (← visit r v)
  | .flatten base => do
    match ← visit base v with
    | .array items => return .array (flattenItems items)
    | _ => return .null
  | .filterProjection base condition right => do
    match ← visit base v with
    | .array items => return .array (← projectIf (visit condition) (visit right) items)
    | _ => return .null
  | .projection base right => do
    match ← visit base v with
    | .array items => return .array (← project (visit right) items)
    | _ => return .null
  | .valueProjection base right => do
    match ← visit base v with
    | .object es => return .array (← project (visit right) (es.map Prod.snd))
    | _ => return .null
  | .list items =>
    if v.isNull then .ok .null else do return .array (← items.mapM fun e => visit e v)
  | .hash fields =>
    if v.isNull then .ok .null
    else do return .object (Entries.ofList (← hashOf visit v fields))
  | .or l r => do
    let a ← visit l v
    if isFalse a then visit r v else return a
  | .and l r => do
    let a ← visit l v
    if isFalse a then return a else visit r v
  | .not inner => do return .bool (isFalse (← visit inner v))
  | .pipe l r => do visit r (← visit l v)
  | .call name args => do
    let vs ← args.mapM fun a => visit a v
    match Function.ofName? name with
    | none => .error (.fault ("unknown function " ++ name))
    | some f => do
      f.check vs
      f.run refer vs
  | .reference i => .ok (.reference i)

/-- Evaluation to a depth; an expression may refer to itself through a reference. -/
def eval (table : List Expr) : Nat → Expr → Value → Result
  | 0, _, _ => .error (.crash .tooDeep)
  | depth + 1, e, v =>
    evalWith (eval table depth)
      (fun i w =>
        match table[i]? with
        | some r => eval table depth r w
        | none => .error (.crash .wrongKind)) e v

def Query.search (q : Query) (v : Value) : Result := eval q.table nestingLimit q.root v

end Reshape.JmesPath
