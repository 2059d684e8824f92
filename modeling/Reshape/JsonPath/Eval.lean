import Reshape.Fault
import Reshape.JsonPath.Match
import Reshape.JsonPath.Parser

/-! Evaluation of JSONPath. What does not fit finds nothing; putting values of different kinds in
order is a fault, and so is taking the matches of a sort that had nothing to sort. -/

namespace Reshape.JsonPath

/-! ### Comparison -/

/-- Whole numbers and doubles have an order among themselves, and so have texts. -/
def less (a b : Value) : Bool :=
  match a, b with
  | .number (.decimal _), _ | _, .number (.decimal _) => false
  | .number x, .number y => x.lt y
  | .text x, .text y => Text.precedes x y
  | _, _ => false

def equal (a b : Value) : Bool := Value.same .apart .nowhere a b

def compareValues : Comparison → Value → Value → Bool
  | .eq, a, b => equal a b
  | .ne, a, b => !equal a b
  | .lt, a, b => less a b
  | .le, a, b => less a b || equal a b
  | .gt, a, b => less b a
  | .ge, a, b => less b a || equal a b

/-- How a comparison comes out when a side is missing: as between two equal things if both are. -/
def Comparison.withMissing (c : Comparison) (both : Bool) : Bool :=
  match c with
  | .eq | .le | .ge => both
  | .ne => !both
  | .lt | .gt => false

/-- Some value on the left compares with the one on the right. -/
def compareSides (c : Comparison) (left : List Value) (right : Option Value) : Bool :=
  match left, right with
  | [], r => c.withMissing r.isNone
  | _ :: _, none => c.withMissing false
  | vs, some w => vs.any fun v => compareValues c v w

def SingularStep.find? : SingularStep → Value → Option Value
  | .name s, v => v.get? s
  | .item n, .array items => Sequence.at? items n
  | .item _, _ => none

/-- The value of the right hand side, for an item below a root. -/
def Comparand.value? (root item : Value) : Comparand → Option Value
  | .literal v => some v
  | .singular fromRoot steps =>
    steps.foldlM (fun v s => s.find? v) (if fromRoot then root else item)

/-- Where a path in a condition starts, for an item below a root. -/
def Expr.origin (e : Expr) (root item : Value) : Source :=
  .match (.alone (if e.isRooted then root else item))

/-! ### Paths -/

/-- Everything that a path finds from each of some matches. -/
def findAll (find : Match → Found) : List Match → Except Stop (List Match)
  | [] => .ok []
  | m :: rest => do
    let ms ← (← find m).list
    return ms ++ (← findAll find rest)

/-- The matches that satisfy a test. -/
def keepIf {α : Type} (test : α → Except Stop Bool) : List α → Except Stop (List α)
  | [] => .ok []
  | m :: rest => do
    let keep ← test m
    let ms ← keepIf test rest
    return if keep then m :: ms else ms

mutual

/-- The matches of a path, from the document or from a match in it. -/
def Expr.find : Expr → Source → Found
  | .root, s => .ok (.many [.alone s.outermost])
  | .this, s => .ok (.many [s.toMatch])
  | .parent, s =>
    match s.toMatch.around with
    | [] => .error (.crash .noParent)
    | v :: around => .ok (.many [⟨v, around⟩])
  | .fields names, s => .ok (.many (s.toMatch.fields names))
  | .wildcard, s => .ok (.many s.toMatch.contents)
  | .indices ns, s => .ok (.many (s.toMatch.items ns))
  | .slice a b c, s => .ok (.many (s.toMatch.slice a b c))
  | .child l r, s => do
    let ms ← (← l.find s).list
    return .many (← findAll (fun m => r.find (.match m)) ms)
  | .descendants l r, s => do
    let ms := (← l.find s).all.flatMap fun m => below m.around m.value
    return .many (← findAll (fun m => r.find (.match m)) ms)
  | .whereHas l r, s => do
    let ms ← (← l.find s).list
    return .many (← keepIf (fun m => (r.find (.match m)).map fun f => !f.isEmpty) ms)
  | .whereNot l r, s => do
    let ms ← (← l.find s).list
    return .many (← keepIf (fun m => (r.find (.match m)).map fun f => f.isEmpty) ms)
  | .union l r, s => do
    let ms ← l.find s
    let ns ← r.find s
    return .many ((← ms.list) ++ (← ns.list))
  | .intersect _ _, _ => .error (.crash .unsupported)
  | .filter c, s => do
    let m := s.toMatch
    return .many ((← keepIf (c.holds s.outermost) (partsOf m.value)).map m.inside)
  | .sorted, s =>
    match s with
    | .document _ => .error (.crash .missingAttribute)
    | .match m => sortedOf m
  | .sortedBy ks, s =>
    match s with
    | .document _ => .error (.crash .missingAttribute)
    | .match m =>
      match m.value with
      | .array items => do
        let sorted ← Sequence.sort (fun v w => keysBefore ks v w) items
        return .many [.alone (.array sorted)]
      | _ => .ok (.lone m)
  | .length, s => .ok (.many ((lengthOf? s.toMatch.value).map fun n => .alone (.int n)).toList)
  | .keys, s => .ok (.many ((keysOf s.toMatch.value).map .alone))
  | .arithmetic op l r, s => do
    match l.side s, r.side s with
    | .error e, _ | _, .error e => .error e
    | .ok a, .ok b =>
      match ← computeAll op (← pairs a b) with
      | some vs => return .many (vs.map .alone)
      | none => return .many []

def Operand.side : Operand → Source → Except Stop Side
  | .literal v, _ => .ok (.literal v)
  | .path e, s => do return .found (← e.find s)

/-- Whether an item satisfies a condition, below a root. -/
def Condition.holds (root : Value) : Condition → Value → Except Stop Bool
  | .found e, v => do return !(← e.find (e.origin root v)).isEmpty
  | .missing e, v => do return (← e.find (e.origin root v)).isEmpty
  | .compare e c r, v => do
    let ms ← (← e.find (e.origin root v)).list
    return compareSides c (ms.map (·.value)) (r.value? root v)
  | .both l r, v => do
    if ← l.holds root v then r.holds root v else return false
  | .either l r, v => do
    if ← l.holds root v then return true else r.holds root v

/-- Whether the first sort key that tells two items apart puts the one before the other. A key that
does not find exactly one match in each decides nothing. -/
def keysBefore : List (Expr × Bool) → Value → Value → Except Stop Bool
  | [], _, _ => .ok false
  | (e, descending) :: rest, v, w => do
    let found ← e.find (.match (.alone v))
    let other ← e.find (.match (.alone w))
    match ← keyPair found other with
    | none => keysBefore rest v w
    | some (a, b) =>
      if Value.same .asNumbers .inside a b then keysBefore rest v w
      else do
        let less ← before a b
        return less != descending

end

/-- Paths may be nested this deep. -/
def depthLimit : Nat := 970

/-- The values that a path finds in a document. -/
def Expr.search (e : Expr) (document : Value) : Except Stop (List Value) := do
  if e.depth > depthLimit then .error (.crash .tooDeep)
  else
    let ms ← (← e.find (.document document)).list
    return ms.map (·.value)

end Reshape.JsonPath
