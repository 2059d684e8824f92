import Reshape.Fault
import Reshape.JsonPath.Expr
import Reshape.Number.Arithmetic
import Reshape.Sequence
import Reshape.Value.Order

/-! Matches of JSONPath: a value together with the values around it, innermost first; and what the
steps of a path find from a match. -/

namespace Reshape.JsonPath

structure Match where
  value : Value
  around : List Value

/-- A value that stands nowhere in the document. -/
def Match.alone (v : Value) : Match := ⟨v, []⟩

/-- A value inside the value of a match. -/
def Match.inside (m : Match) (v : Value) : Match := ⟨v, m.value :: m.around⟩

/-- Where a path starts: at the document, which is no match yet, or at a match. -/
inductive Source
  | document (v : Value)
  | match (m : Match)

namespace Source

def toMatch : Source → Match
  | .document v => .alone v
  | .match m => m

/-- The outermost value. -/
def outermost (s : Source) : Value := s.toMatch.around.getLast?.getD s.toMatch.value

end Source

/-! ### Results -/

/-- Why evaluation stops: values without an order, a lone match where several could be, or a failure
that the caller passes on. -/
inductive Stop
  | unordered
  | lone
  | crash (c : Crash)

/-- What a path finds. Sorting leaves a match that holds nothing to sort as it is, and such a match
is no list of matches. -/
inductive Result
  | many (ms : List Match)
  | lone (m : Match)

abbrev Found := Except Stop Result

namespace Result

def list : Result → Except Stop (List Match)
  | .many ms => .ok ms
  | .lone _ => .error .lone

def all : Result → List Match
  | .many ms => ms
  | .lone m => [m]

def isEmpty : Result → Bool
  | .many ms => ms.isEmpty
  | .lone _ => false

end Result

/-! ### Steps -/

/-- The items of an array or the values of an object. -/
def partsOf : Value → List Value
  | .array items => items
  | .object es => es.map Prod.snd
  | _ => []

namespace Match

def contents (m : Match) : List Match := (partsOf m.value).map m.inside

def fields (m : Match) (names : List String) : List Match :=
  (names.filterMap m.value.get?).map m.inside

def items (m : Match) (ns : List Int) : List Match :=
  match m.value with
  | .array items => (ns.filterMap (Sequence.at? items)).map m.inside
  | _ => []

def slice (m : Match) (start stop step : Option Int) : List Match :=
  match m.value with
  | .array items => ((Sequence.slice? items start stop step).getD []).map m.inside
  | _ => []

end Match

mutual

/-- A value and all values below it, each before what it holds, with the values around them. -/
def below (around : List Value) : Value → List Match
  | .array items => ⟨.array items, around⟩ :: belowItems (.array items :: around) items
  | .object es => ⟨.object es, around⟩ :: belowEntries (.object es :: around) es
  | v => [⟨v, around⟩]

def belowItems (around : List Value) : List Value → List Match
  | [] => []
  | v :: rest => below around v ++ belowItems around rest

def belowEntries (around : List Value) : List (Key × Value) → List Match
  | [] => []
  | (_, v) :: rest => below around v ++ belowEntries around rest

end

/-- The number of characters, items or entries. -/
def lengthOf? : Value → Option Nat
  | .text s => some s.length
  | .array items => some items.length
  | .object es => some es.length
  | _ => none

def keysOf : Value → List Value
  | .object es => es.map fun (k, _) => Value.ofKey k
  | _ => []

/-! ### Order -/

def before (a b : Value) : Except Stop Bool :=
  (Value.before a b).mapError fun
    | .unordered => .unordered
    | .undefined => .crash .arithmetic

/-- The items of an array, or the keys of an object, in order. -/
def sortedOf (m : Match) : Found :=
  match m.value with
  | .array items => do return .many [.alone (.array (← Sequence.sort before items))]
  | .object es => do return .many [.alone (.array (← Sequence.sort before (keysOf (.object es))))]
  | _ => .ok (.lone m)

/-- The values of a sort key in two items, if it has exactly one match in each. -/
def keyPair (a b : Result) : Except Stop (Option (Value × Value)) :=
  match a, b with
  | .many [], _ | _, .many [] => .ok none
  | .many [m], .many [n] => .ok (some (m.value, n.value))
  | .many (_ :: _ :: _), _ => .ok none
  | .many [_], .many (_ :: _ :: _) => .ok none
  | .lone _, _ | .many [_], .lone _ => .error .lone

/-! ### Arithmetic -/

/-- Some copies of a list; a negative number of copies is none. -/
def copies {α : Type} (n : Nat) (xs : List α) : List α := (List.replicate n xs).flatten

/-- A whole number, or a truth value as one. -/
def count? (v : Value) : Option Int :=
  match v.asNumber? with
  | some (.int n) => some n
  | _ => none

/-- Repeats a text or an array. -/
def times (v : Value) (n : Int) : Except Stop (Option Value) :=
  let repeated {α : Type} (xs : List α) (tooLong : Crash) (make : List α → Value) :
      Except Stop (Option Value) :=
    if n.natAbs > Sequence.sizeLimit then .error (.crash .overflow)
    else if xs.length * n.toNat > Sequence.sizeLimit then .error (.crash tooLong)
    else if xs.length * n.toNat > Sequence.memoryLimit then .error (.crash .memory)
    else .ok (some (make (if xs.isEmpty then [] else copies n.toNat xs)))
  match v with
  | .text s => repeated s.toList .overflow fun cs => .text (String.ofList cs)
  | .array items => repeated items .memory .array
  | _ => .ok none

/-- Texts and arrays can be joined and repeated. -/
def compose (op : Arithmetic) (a b : Value) : Except Stop (Option Value) :=
  match op, a, b with
  | .add, .text x, .text y => .ok (some (.text (x ++ y)))
  | .add, .array xs, .array ys => .ok (some (.array (xs ++ ys)))
  | .mul, _, _ =>
    match count? a, count? b with
    | _, some n => times a n
    | some n, _ => times b n
    | _, _ => .ok none
  | _, _, _ => .ok none

def Arithmetic.operation : Arithmetic → Number.Operation
  | .add => Number.addition
  | .sub => Number.subtraction
  | .mul => Number.multiplication

/-- The result of arithmetic, if the operands fit. -/
def compute (op : Arithmetic) (a b : Value) : Except Stop (Option Value) :=
  match a.asNumber?, b.asNumber? with
  | some x, some y =>
    match op.operation.apply x y with
    | .ok n => .ok (some (.number n))
    | .error .mixed => .ok none
    | .error .overflow => .error (.crash .overflow)
    | .error .range => .error (.crash .range)
  | _, _ => compose op a b

/-- The results for pairs of operands; none at all if one pair does not fit. -/
def computeAll (op : Arithmetic) : List (Value × Value) → Except Stop (Option (List Value))
  | [] => .ok (some [])
  | (a, b) :: rest => do
    match ← compute op a b with
    | none => return none
    | some v => return (← computeAll op rest).map (v :: ·)

/-- The values of an operand: a literal goes with everything. -/
inductive Side
  | literal (v : Value)
  | found (r : Result)

/-- The operands that belong together. Matches on both sides must be equally many. -/
def pairs : Side → Side → Except Stop (List (Value × Value))
  | .literal a, .literal b => .ok [(a, b)]
  | .literal a, .found bs => do return (← bs.list).map fun m => (a, m.value)
  | .found as, .literal b => do return (← as.list).map fun m => (m.value, b)
  | .found as, .found bs => do
    if as.isEmpty || bs.isEmpty then return []
    let ms ← as.list
    let ns ← bs.list
    return if ms.length = ns.length then (ms.zip ns).map fun (m, n) => (m.value, n.value) else []

end Reshape.JsonPath
