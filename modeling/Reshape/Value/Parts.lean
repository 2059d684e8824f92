import Reshape.Value

/-! Values taken apart: what they hold one after the other, how deep they are, which of them count as
empty, and which of them stand inside of themselves. -/

namespace Reshape.Value

/-- The parts of a value that can be taken apart: items, characters or keys. -/
def parts? : Value → Option (List Value)
  | .array items => some items
  | .text s => some (s.toList.map fun c => .text (String.singleton c))
  | .object es => some (es.map fun (k, _) => ofKey k)
  | _ => none

/-- Everything but null, false, zero and what is empty. -/
def isTruthy : Value → Bool
  | .null => false
  | .bool b => b
  | .number n => !n.isZero
  | .text s => !s.isEmpty
  | .array items => !items.isEmpty
  | .object es => !es.isEmpty
  | _ => true

mutual

/-- How many arrays and objects stand in each other. -/
def height : Value → Nat
  | .array items => heightOfItems items + 1
  | .object es => heightOfEntries es + 1
  | _ => 0

def heightOfItems : List Value → Nat
  | [] => 0
  | v :: rest => max v.height (heightOfItems rest)

def heightOfEntries : List (Key × Value) → Nat
  | [] => 0
  | (_, v) :: rest => max v.height (heightOfEntries rest)

end

mutual

/-- Whether something in a value stands inside of itself, so that going through it never ends. -/
def isEndless : Value → Bool
  | .array items => hasEndlessItem items
  | .object es => hasEndlessEntry es
  | .special .loop => true
  | _ => false

def hasEndlessItem : List Value → Bool
  | [] => false
  | v :: rest => v.isEndless || hasEndlessItem rest

def hasEndlessEntry : List (Key × Value) → Bool
  | [] => false
  | (_, v) :: rest => v.isEndless || hasEndlessEntry rest

end

end Reshape.Value

namespace Reshape.Text

/-- Whether a text occurs in another one. -/
def occursIn (part : List Char) : List Char → Bool
  | [] => part.isEmpty
  | c :: cs => part.isPrefixOf (c :: cs) || occursIn part cs

end Reshape.Text
