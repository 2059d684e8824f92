import Reshape.Fault
import Reshape.Value.Order
import Reshape.Value.Parts

/-! The values of keywords taken apart. A schema that a reference reaches may hold anything under a
keyword; what cannot be taken as the keyword needs it is a crash. -/

namespace Reshape.Schema

/-- The parts of a value, one after the other. -/
def partsOf (v : Value) : Except Crash (List Value) :=
  match v.parts? with
  | some parts => .ok parts
  | none => .error .wrongKind

/-- The entries of an object. -/
def entriesOf : Value → Except Crash (List (Key × Value))
  | .object es => .ok es
  | _ => .error .missingAttribute

/-- How many parts a value has. -/
def lengthOf (v : Value) : Except Crash Nat := do return (← partsOf v).length

def textOf : Value → Except Crash String
  | .text s => .ok s
  | _ => .error .wrongKind

def isArray : Value → Bool
  | .array _ => true
  | _ => false

def isObject : Value → Bool
  | .object _ => true
  | _ => false

def isFalse : Value → Bool
  | .bool b => !b
  | _ => false

/-! ### Membership and order -/

/-- Whether entries have a key, which a value names. -/
def hasMember (es : List (Key × Value)) : Value → Except Crash Bool
  | .array _ | .object _ => .error .wrongKind
  | name => .ok (es.any fun (k, _) => Value.same .asNumbers .everywhere (.ofKey k) name)

/-- Whether a text stands in a value: as a key, an item, or a part of a text. -/
def mentions (key : String) : Value → Except Crash Bool
  | .object es => .ok (Entries.has (.text key) es)
  | .array items => .ok (items.any fun v => Value.same .asNumbers .everywhere (.text key) v)
  | .text s => .ok (Text.occursIn key.toList s.toList)
  | _ => .error .wrongKind

def crashOf : OrderFault → Crash
  | .unordered => .wrongKind
  | .undefined => .arithmetic

def comesBefore (a b : Value) : Except Crash Bool := (a.before b).mapError crashOf

/-- Whether a value comes before another one or is equal to it. -/
def isWithin (a b : Value) : Except Crash Bool := do
  return (← comesBefore a b) || Value.same .asNumbers .nowhere a b

/-- Keys in the order of their texts. -/
def sortedKeys (ks : List Key) : List Key :=
  ks.mergeSort fun a b => !Text.precedes b.inPath a.inPath

end Reshape.Schema
