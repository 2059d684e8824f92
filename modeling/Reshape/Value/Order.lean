import Reshape.Sequence.Sort
import Reshape.Text.Surrogate
import Reshape.Value.Equality

/-! The order of values: numbers and truth values by exact value, texts by code points, arrays by
their first items that differ. No other two values are in order. -/

namespace Reshape

/-- Why two values are in no order: their kinds differ, or a decimal meets NaN. -/
inductive OrderFault
  | unordered
  | undefined
  deriving DecidableEq, Repr

/-- Whether one number is less than another. NaN is not, and is no match for a decimal. -/
def Number.before (a b : Number) : Except OrderFault Bool :=
  match a, b with
  | .decimal _, .double .nan | .double .nan, .decimal _ => .error .undefined
  | _, _ => .ok (a.lt b)

namespace Value

/-- A number, or a truth value as a number. -/
def asNumber? : Value → Option Number
  | .number n => some n
  | .bool b => some (ofTruth b)
  | _ => none

def scalarBefore (a b : Value) : Except OrderFault Bool :=
  match a, b with
  | .text x, .text y => .ok (Text.precedes x y)
  | _, _ =>
    match a.asNumber?, b.asNumber? with
    | some x, some y => x.before y
    | _, _ => .error .unordered

mutual

def before : Value → Value → Except OrderFault Bool
  | .array xs, .array ys => itemsBefore xs ys
  | v, w => scalarBefore v w

def itemsBefore : List Value → List Value → Except OrderFault Bool
  | _, [] => .ok false
  | [], _ :: _ => .ok true
  | x :: xs, y :: ys => if same .asNumbers .everywhere x y then itemsBefore xs ys else before x y

end

end Value

end Reshape
