import Reshape.Fault

/-! The functions of JMESPath by name, and the kinds of arguments that each accepts. -/

namespace Reshape.JmesPath

/-- An evaluation that cannot go on: a fault of the expression, or a crash. -/
inductive Stop
  | fault (detail : String)
  | crash (c : Crash)
  deriving DecidableEq, Repr

abbrev Result := Except Stop Value

/-! ### Kinds of arguments -/

inductive Category
  | boolean
  | array
  | object
  | null
  | string
  | number
  | expression
  deriving DecidableEq, Repr

def categoryOf? : Value → Option Category
  | .null => some .null
  | .bool _ => some .boolean
  | .number (.decimal _) => none
  | .number _ => some .number
  | .text _ => some .string
  | .array _ => some .array
  | .object _ => some .object
  | .special _ => none
  | .reference _ => some .expression

/-- What a parameter accepts; an array may be restricted in its items. -/
inductive Accepted
  | plain (c : Category)
  | arrayOf (c : Category)
  deriving DecidableEq, Repr

def Accepted.outer : Accepted → Category
  | .plain c => c
  | .arrayOf _ => .array

def Accepted.inner? : Accepted → Option Category
  | .plain _ => none
  | .arrayOf c => some c

def itemsAre (c : Category) (items : List Value) : Bool :=
  items.all fun v => categoryOf? v == some c

/-- Whether items satisfy the restriction, or of several the one that suits the first item. -/
def itemsAllowed (inner : List Category) (items : List Value) : Bool :=
  match inner, items with
  | [], _ => true
  | [c], _ => itemsAre c items
  | _, [] => true
  | cs, first :: _ => cs.any fun c => categoryOf? first == some c && itemsAre c items

/-- A parameter that accepts nothing in particular accepts every value. -/
def allowed (parameter : List Accepted) (v : Value) : Bool :=
  parameter.isEmpty ||
    (parameter.any (fun a => categoryOf? v == some a.outer) &&
      match v with
      | .array items => itemsAllowed (parameter.filterMap Accepted.inner?) items
      | _ => true)

/-! ### Signatures -/

inductive Function
  | abs
  | avg
  | ceil
  | contains
  | endsWith
  | floor
  | join
  | keys
  | length
  | map
  | max
  | maxBy
  | merge
  | min
  | minBy
  | notNull
  | reverse
  | sort
  | sortBy
  | startsWith
  | sum
  | toArray
  | toNumber
  | toString
  | type
  | values
  deriving DecidableEq, Repr

namespace Function

def ofName? : String → Option Function
  | "abs" => some .abs
  | "avg" => some .avg
  | "ceil" => some .ceil
  | "contains" => some .contains
  | "ends_with" => some .endsWith
  | "floor" => some .floor
  | "join" => some .join
  | "keys" => some .keys
  | "length" => some .length
  | "map" => some .map
  | "max" => some .max
  | "max_by" => some .maxBy
  | "merge" => some .merge
  | "min" => some .min
  | "min_by" => some .minBy
  | "not_null" => some .notNull
  | "reverse" => some .reverse
  | "sort" => some .sort
  | "sort_by" => some .sortBy
  | "starts_with" => some .startsWith
  | "sum" => some .sum
  | "to_array" => some .toArray
  | "to_number" => some .toNumber
  | "to_string" => some .toString
  | "type" => some .type
  | "values" => some .values
  | _ => none

def parameters : Function → List (List Accepted)
  | .abs | .ceil | .floor => [[.plain .number]]
  | .avg | .sum => [[.arrayOf .number]]
  | .contains => [[.plain .array, .plain .string], []]
  | .endsWith | .startsWith => [[.plain .string], [.plain .string]]
  | .join => [[.plain .string], [.arrayOf .string]]
  | .keys | .values | .merge => [[.plain .object]]
  | .length => [[.plain .string, .plain .array, .plain .object]]
  | .map => [[.plain .expression], [.plain .array]]
  | .max | .min | .sort => [[.arrayOf .number, .arrayOf .string]]
  | .maxBy | .minBy | .sortBy => [[.plain .array], [.plain .expression]]
  | .reverse => [[.plain .array, .plain .string]]
  | .notNull | .toArray | .toNumber | .toString | .type => [[]]

/-- Whether more arguments than parameters may follow, unchecked. -/
def variadic : Function → Bool
  | .merge | .notNull => true
  | _ => false

/-- The number of arguments and the kind of each that has a parameter. -/
def check (f : Function) (args : List Value) : Except Stop Unit :=
  let ps := f.parameters
  if args.length < ps.length || (!f.variadic && args.length ≠ ps.length) then
    .error (.fault "wrong number of arguments")
  else if (ps.zip args).all fun (p, v) => allowed p v then .ok ()
  else .error (.fault "invalid type for an argument")

end Function

end Reshape.JmesPath
