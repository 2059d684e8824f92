import Reshape.Dialect
import Reshape.Schema.Reading

/-! The names of types. Only the oldest dialect has a name for any type, and only from the sixth
draft on a whole double is an integer. -/

namespace Reshape.Schema

def isInteger (d : Dialect) : Value → Bool
  | .number (.int _) => true
  | .number (.double x) => !d.isOldest && x.isWhole
  | _ => false

def isNumber : Value → Bool
  | .number _ => true
  | _ => false

/-- Whether a value has the type of a given name; none for an unknown name. -/
def hasType? (d : Dialect) (name : String) (v : Value) : Option Bool :=
  match name with
  | "array" => some (isArray v)
  | "boolean" => some (v.kind == .bool)
  | "integer" => some (isInteger d v)
  | "null" => some v.isNull
  | "number" => some (isNumber v)
  | "object" => some (isObject v)
  | "string" => some (v.kind == .text)
  | "any" => if d = .draft3 then some true else none
  | _ => none

/-- Whether a value has the type that another value names. -/
def hasTypeOf (d : Dialect) (v name : Value) : Except Crash Bool :=
  match name with
  | .array _ | .object _ => .error .wrongKind
  | .text s =>
    match hasType? d s v with
    | some b => .ok b
    | none => .error .unknownType
  | _ => .error .unknownType

end Reshape.Schema
