import Reshape.JmesPath.Expr

/-! Parsing by binding power: an operand is extended to the right as long as the next token binds
tighter than what stands before it. -/

namespace Reshape.JmesPath

/-- How tightly a token binds the operand before it. -/
def Token.power : Token → Nat
  | .pipe => 1
  | .or => 2
  | .and => 3
  | .compare _ => 5
  | .flatten => 9
  | .star => 20
  | .filter => 21
  | .dot => 40
  | .not => 45
  | .lbrace => 50
  | .lbracket => 55
  | .lparen => 60
  | _ => 0

/-- Tokens that bind less end a projection. -/
def projectionStop : Nat := 10

def starPower : Nat := 20

def filterPower : Nat := 21

def dotPower : Nat := 40

/-- Expressions may be nested this deep. -/
def nestingLimit : Nat := 480

/-- The tokens left, and the table of referenced expressions so far. -/
structure Cursor where
  tokens : List Token
  table : List Expr

namespace Cursor

def peek (c : Cursor) : Token := c.tokens.headD .finish

def second (c : Cursor) : Token := c.tokens.tail.headD .finish

def skip (c : Cursor) : Cursor := { c with tokens := c.tokens.tail }

/-- Adds an expression to the table. -/
def refer (c : Cursor) (e : Expr) : Expr × Cursor :=
  (.reference c.table.length, { c with table := c.table ++ [e] })

end Cursor

def unexpected {α : Type} (detail : String) : Except Rejection (α × Cursor) :=
  .error (.malformed detail)

def closeBracket (c : Cursor) : Except Rejection Cursor :=
  match c.peek with
  | .rbracket => .ok c.skip
  | _ => .error (.malformed "expected ]")

def closeParen (c : Cursor) : Except Rejection Cursor :=
  match c.peek with
  | .rparen => .ok c.skip
  | _ => .error (.malformed "expected )")

/-! ### Indices and slices -/

/-- The parts of a slice up to its bracket; `place` counts the colons so far, two at most. -/
def sliceParts : List Token → Nat → Option Int × Option Int × Option Int →
    Except Rejection ((Option Int × Option Int × Option Int) × List Token)
  | .rbracket :: rest, _, parts => .ok (parts, rest)
  | .colon :: rest, place, parts =>
    if place ≥ 2 then .error (.malformed "too many colons in a slice")
    else sliceParts rest (place + 1) parts
  | .number n :: rest, place, (a, b, s) =>
    sliceParts rest place
      (if place = 0 then (some n, b, s) else if place = 1 then (a, some n, s) else (a, b, some n))
  | _, _, _ => .error (.malformed "bad slice")

/-- `n]`, or a slice. -/
def indexOrSlice (c : Cursor) : Except Rejection (Expr × Cursor) :=
  match c.tokens with
  | .number n :: .rbracket :: rest => .ok (.index n, { c with tokens := rest })
  | .colon :: _ | .number _ :: .colon :: _ => do
    let ((a, b, s), rest) ← sliceParts c.tokens 0 (none, none, none)
    return (.slice a b s, { c with tokens := rest })
  | _ => unexpected "bad index"

/-- Adds a step to a chain of sub-expressions. -/
def appendSub (left right : Expr) : Expr :=
  match left with
  | .sub parts => .sub (parts ++ [right])
  | _ => .sub [left, right]

/-! ### Parts that hold expressions

Each takes the parser of expressions, as a function of the power that ends them. -/

abbrev SubParser := Nat → Cursor → Except Rejection (Expr × Cursor)

/-- Arguments up to the closing parenthesis. The comma between two of them may be missing, and one
may stand before the parenthesis. -/
def arguments (expr : SubParser) : Nat → Cursor → Except Rejection (List Expr × Cursor)
  | 0, _ => unexpected "unclosed arguments"
  | steps + 1, c =>
    match c.peek with
    | .rparen => .ok ([], c.skip)
    | _ => do
      let (e, c) ← expr 0 c
      let c := match c.peek with
        | .comma => c.skip
        | _ => c
      let (es, c) ← arguments expr steps c
      return (e :: es, c)

/-- Items up to the closing bracket. -/
def listItems (expr : SubParser) : Nat → Cursor → Except Rejection (List Expr × Cursor)
  | 0, _ => unexpected "unclosed list"
  | steps + 1, c => do
    let (e, c) ← expr 0 c
    match c.peek with
    | .rbracket => return ([e], c.skip)
    | .comma =>
      let (es, c) ← listItems expr steps c.skip
      return (e :: es, c)
    | _ => unexpected "expected , or ]"

def listRight (expr : SubParser) (c : Cursor) : Except Rejection (Expr × Cursor) := do
  let (es, c) ← listItems expr c.tokens.length c
  return (.list es, c)

/-- The name of a field of a hash. -/
def fieldName? : Token → Option String
  | .identifier s => some s
  | .quoted s => some s
  | _ => none

/-- Fields up to the closing brace. The comma between two of them may be missing. -/
def hashFields (expr : SubParser) : Nat → Cursor → Except Rejection (List (String × Expr) × Cursor)
  | 0, _ => unexpected "unclosed hash"
  | steps + 1, c =>
    match fieldName? c.peek, c.second with
    | some name, .colon => do
      let (e, c) ← expr 0 c.skip.skip
      match c.peek with
      | .rbrace => return ([(name, e)], c.skip)
      | .comma =>
        let (fs, c) ← hashFields expr steps c.skip
        return ((name, e) :: fs, c)
      | _ =>
        let (fs, c) ← hashFields expr steps c
        return ((name, e) :: fs, c)
    | _, _ => unexpected "expected a name and a colon"

def hashRight (expr : SubParser) (c : Cursor) : Except Rejection (Expr × Cursor) := do
  let (fs, c) ← hashFields expr c.tokens.length c
  return (.hash fs, c)

/-- What may follow a dot. -/
def dotRight (expr : SubParser) (power : Nat) (c : Cursor) : Except Rejection (Expr × Cursor) :=
  match c.peek with
  | .identifier _ | .quoted _ | .star => expr power c
  | .lbracket => listRight expr c.skip
  | .lbrace => hashRight expr c.skip
  | _ => unexpected "bad right hand side of a dot"

/-- What a projection does with each match. -/
def projectionRight (expr : SubParser) (power : Nat) (c : Cursor) :
    Except Rejection (Expr × Cursor) :=
  if c.peek.power < projectionStop then .ok (.current, c)
  else
    match c.peek with
    | .lbracket | .filter => expr power c
    | .dot => dotRight expr power c.skip
    | _ => unexpected "bad right hand side of a projection"

/-- A slice projects its items; an index does not. -/
def indexedRight (expr : SubParser) (left part : Expr) (c : Cursor) :
    Except Rejection (Expr × Cursor) :=
  match part with
  | .slice _ _ _ => do
    let (right, c) ← projectionRight expr starPower c
    return (.projection (.indexed [left, part]) right, c)
  | _ => .ok (.indexed [left, part], c)

/-- The condition, the closing bracket and the right hand side of a filter. -/
def filterRight (expr : SubParser) (left : Expr) (c : Cursor) :
    Except Rejection (Expr × Cursor) := do
  let (condition, c) ← expr 0 c
  let c ← closeBracket c
  match c.peek with
  | .flatten => return (.filterProjection left condition .current, c)
  | _ =>
    let (right, c) ← projectionRight expr filterPower c
    return (.filterProjection left condition right, c)

/-! ### Operands and operators -/

/-- The expression that starts with a token. -/
def operand (expr : SubParser) (t : Token) (c : Cursor) : Except Rejection (Expr × Cursor) :=
  match t with
  | .literal v => .ok (.literal v, c)
  | .identifier s => .ok (.field s, c)
  | .quoted s =>
    match c.peek with
    | .lparen => unexpected "quoted identifier as a function name"
    | _ => .ok (.field s, c)
  | .star =>
    match c.peek with
    | .rbracket => .ok (.valueProjection .current .current, c)
    | _ => do
      let (right, c) ← projectionRight expr starPower c
      return (.valueProjection .current right, c)
  | .filter => filterRight expr .current c
  | .lbrace => hashRight expr c
  | .lparen => do
    let (e, c) ← expr 0 c
    let c ← closeParen c
    return (e, c)
  | .flatten => do
    let (right, c) ← projectionRight expr Token.flatten.power c
    return (.projection (.flatten .current) right, c)
  | .not => do
    let (e, c) ← expr Token.not.power c
    return (.not e, c)
  | .lbracket =>
    match c.peek, c.second with
    | .number _, _ | .colon, _ => do
      let (part, c) ← indexOrSlice c
      indexedRight expr .current part c
    | .star, .rbracket => do
      let (right, c) ← projectionRight expr starPower c.skip.skip
      return (.projection .current right, c)
    | _, _ => listRight expr c
  | .current => .ok (.current, c)
  | .reference => do
    let (e, c) ← expr 0 c
    return c.refer e
  | _ => unexpected "unexpected token"

def binary (expr : SubParser) (t : Token) (build : Expr → Expr) (c : Cursor) :
    Except Rejection (Expr × Cursor) := do
  let (right, c) ← expr t.power c
  return (build right, c)

/-- The expression that a token makes of the operand before it. -/
def operator (expr : SubParser) (t : Token) (left : Expr) (c : Cursor) :
    Except Rejection (Expr × Cursor) :=
  match t with
  | .dot =>
    match c.peek with
    | .star => do
      let (right, c) ← projectionRight expr dotPower c.skip
      return (.valueProjection left right, c)
    | _ => do
      let (right, c) ← dotRight expr dotPower c
      return (appendSub left right, c)
  | .pipe => binary expr .pipe (.pipe left) c
  | .or => binary expr .or (.or left) c
  | .and => binary expr .and (.and left) c
  | .compare o => binary expr (.compare o) (.compare o left) c
  | .lparen =>
    match left with
    | .field name => do
      let (args, c) ← arguments expr c.tokens.length c
      return (.call name args, c)
    | _ => unexpected "bad function name"
  | .filter => filterRight expr left c
  | .flatten => do
    let (right, c) ← projectionRight expr Token.flatten.power c
    return (.projection (.flatten left) right, c)
  | .lbracket =>
    match c.peek, c.second with
    | .number _, _ | .colon, _ => do
      let (part, c) ← indexOrSlice c
      match left with
      | .indexed parts => return (.indexed (parts ++ [part]), c)
      | _ => indexedRight expr left part c
    | .star, .rbracket => do
      let (right, c) ← projectionRight expr starPower c.skip.skip
      return (.projection left right, c)
    | _, _ => unexpected "bad bracket"
  | _ => unexpected "unexpected token"

/-- Applies operators while they bind tighter than `power`. -/
def extend (expr : SubParser) (power : Nat) : Nat → Expr → Cursor → Except Rejection (Expr × Cursor)
  | 0, left, c => .ok (left, c)
  | steps + 1, left, c =>
    if power < c.peek.power then do
      let (left, c) ← operator expr c.peek left c.skip
      extend expr power steps left c
    else .ok (left, c)

/-- An operand, and every operator behind it that binds tighter than `power`. -/
def expression : Nat → SubParser
  | 0, _, _ => .error .tooDeep
  | depth + 1, power, c => do
    let (left, c) ← operand (expression depth) c.peek c.skip
    extend (expression depth) power c.tokens.length left c

def parse (s : String) : Except Rejection Query := do
  let ts ← tokens s
  let (e, c) ← expression nestingLimit 0 ⟨ts, []⟩
  match c.peek with
  | .finish => return ⟨e, c.table⟩
  | _ => .error (.malformed "unexpected token")

end Reshape.JmesPath
