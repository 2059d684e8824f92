import Reshape.Value

/-! Equality of values: numbers by exact value, arrays in order, objects regardless of order. The
truth values count as the numbers 1 and 0, or as values of their own, and NaN may equal itself. A
reference equals nothing. -/

namespace Reshape.Value

/-- How truth values compare with numbers. -/
inductive Truths
  | asNumbers
  | apart
  deriving DecidableEq

/-- Where NaN equals itself. -/
inductive Nans
  | nowhere
  | inside
  | everywhere
  deriving DecidableEq

/-- The rule for the items of an array or object. -/
def Nans.within : Nans → Nans
  | .nowhere => .nowhere
  | _ => .everywhere

/-- A truth value as a number. -/
def ofTruth (b : Bool) : Number := .int (if b then 1 else 0)

def sameNumber (n : Nans) (a b : Number) : Bool :=
  a.same b || (n == .everywhere && a == .double .nan && b == .double .nan)

def sameScalar (t : Truths) (n : Nans) : Value → Value → Bool
  | .null, .null => true
  | .bool a, .bool b => a == b
  | .bool a, .number b => t == .asNumbers && (ofTruth a).same b
  | .number a, .bool b => t == .asNumbers && a.same (ofTruth b)
  | .number a, .number b => sameNumber n a b
  | .text a, .text b => a == b
  | .special a, .special b => a == b
  | _, _ => false

mutual

def same (t : Truths) (n : Nans) : Value → Value → Bool
  | .array xs, .array ys => sameItems t n.within xs ys
  | .object es, .object fs => es.length == fs.length && sameEntries t n.within es fs
  | v, w => sameScalar t n v w

def sameItems (t : Truths) (n : Nans) : List Value → List Value → Bool
  | [], [] => true
  | x :: xs, y :: ys => same t n x y && sameItems t n xs ys
  | _, _ => false

/-- Every entry of the first object has an equal one in the second. -/
def sameEntries (t : Truths) (n : Nans) : List (Key × Value) → List (Key × Value) → Bool
  | [], _ => true
  | (k, v) :: rest, fs =>
    (match Entries.find? k fs with
      | some w => same t n v w
      | none => false) && sameEntries t n rest fs

end

end Reshape.Value

namespace Reshape.Entries

/-- The spelling under which a key stands in an object: keys that are equal as values are one. -/
def spelling (es : List (Key × Value)) (k : Key) : Key :=
  let known := es.find? fun (j, _) =>
    j = k || (Value.ofKey j).same .asNumbers .everywhere (.ofKey k)
  known.elim k (·.1)

/-- Entries written one after the other, whose keys may be any scalars. -/
def ofValues (es : List (Key × Value)) : List (Key × Value) :=
  es.foldl (fun acc (k, v) => insert (spelling acc k) v acc) []

end Reshape.Entries
