import Reshape.JmesPath.Signature
import Reshape.Json.Printer
import Reshape.Number.Arithmetic
import Reshape.Text.Numeral
import Reshape.Value.Order
import Reshape.Value.Parts

/-! The functions of JMESPath. A function declares the kinds of its arguments, which are checked
before it runs; what a check lets through and an operation still cannot take is a crash. -/

namespace Reshape.JmesPath

/-! ### Numbers -/

def ofComputed : Number.Computed → Result
  | .ok n => .ok (.number n)
  | .error .overflow => .error (.crash .overflow)
  | .error .mixed => .error (.crash .wrongKind)
  | .error .range => .error (.crash .range)

def numbersOf (items : List Value) : List Number :=
  items.filterMap fun
    | .number n => some n
    | _ => none

/-- A whole number next to a number; infinities and NaN have none. -/
def roundTo (whole : Double → Option Int) : Number → Result
  | .double .nan => .error (.crash .badValue)
  | .double d =>
    match whole d with
    | some n => .ok (.int n)
    | none => .error (.crash .overflow)
  | n => .ok (.number n)

/-- The mean as a double. -/
def mean (items : List Value) : Result :=
  match items with
  | [] => .ok .null
  | _ => do
    match Number.sum (numbersOf items), Double.ofInt? items.length with
    | .ok (.int n), some count =>
      match Double.ofInt? n with
      | some d => return .double (d.div count)
      | none => .error (.crash .overflow)
    | .ok (.double d), some count => return .double (d.div count)
    | .error .overflow, _ => .error (.crash .overflow)
    | _, _ => .error (.crash .wrongKind)

/-! ### Selection and order -/

def before (a b : Value) : Except Stop Bool :=
  (Value.before a b).mapError fun
    | .unordered => .crash .wrongKind
    | .undefined => .crash .arithmetic

/-- The first item that no other one beats; `beats challenger best` compares keys. -/
def best (key : Value → Result) (beats : Value → Value → Except Stop Bool) :
    List Value → Except Stop (Option (Value × Value))
  | items => items.foldlM (fun (acc : Option (Value × Value)) v => do
      let k ← key v
      match acc with
      | none => return some (k, v)
      | some (j, w) => return if ← beats k j then some (k, v) else some (j, w)) none

def bestOf (key : Value → Result) (beats : Value → Value → Except Stop Bool) (items : List Value) :
    Result := do
  match ← best key beats items with
  | some (_, v) => return v
  | none => return .null

/-- A key must be of one of the categories. -/
def checkedKey (visit : Nat → Value → Result) (i : Nat) (categories : List Category) (v : Value) :
    Result := do
  let k ← visit i v
  if categories.any fun c => categoryOf? k == some c then return k
  else .error (.fault "invalid type for a key")

/-- Stable sorting; all keys must be numbers or all texts, as the first one is. -/
def sortByExpression (visit : Nat → Value → Result) (items : List Value) (i : Nat) : Result :=
  match items with
  | [] => .ok (.array [])
  | first :: _ => do
    let k ← visit i first
    match categoryOf? k with
    | some .number | some .string =>
      let keyed ← items.mapM fun v => do
        let key ← checkedKey visit i (categoryOf? k).toList v
        return (key, v)
      return .array ((← Sequence.sort (fun x y => before x.1 y.1) keyed).map Prod.snd)
    | _ => .error (.fault "invalid type for a key")

/-! ### Containers -/

def containsValue (subject search : Value) : Result :=
  match subject, search with
  | .array items, v => .ok (.bool (items.any (Value.same .asNumbers .everywhere · v)))
  | .text s, .text t => .ok (.bool (Text.occursIn t.toList s.toList))
  | _, _ => .error (.crash .wrongKind)

/-- A value of two parts as an entry. -/
def entryOf (v : Value) : Except Stop (Key × Value) :=
  match v.parts? with
  | some [k, w] =>
    match k.toKey? with
    | some key => .ok (key, w)
    | none => .error (.crash .wrongKind)
  | some _ => .error (.crash .badValue)
  | none => .error (.crash .wrongKind)

/-- The entries of an object, or of a value whose parts are pairs. -/
def entriesOf (v : Value) : Except Stop (List (Key × Value)) :=
  match v with
  | .object es => .ok es
  | _ =>
    match v.parts? with
    | some parts => parts.mapM entryOf
    | none => .error (.crash .wrongKind)

def mergeAll (args : List Value) : Result := do
  let all ← args.mapM entriesOf
  return .object (Entries.ofValues all.flatten)

/-! ### Conversions -/

def numberOf : Value → Result
  | .number n => .ok (.number n)
  | .text s =>
    match Text.readInteger? s, Text.readDouble? s with
    | some n, _ => .ok (.int n)
    | none, some d => .ok (.double d)
    | none, none => .ok .null
  | .reference _ | .special _ => .error (.crash .wrongKind)
  | _ => .ok .null

def typeName : Value → Value
  | .null => .text "null"
  | .bool _ => .text "boolean"
  | .number (.decimal _) => .null
  | .number _ => .text "number"
  | .text _ => .text "string"
  | .array _ => .text "array"
  | .object _ => .text "object"
  | .special _ => .null
  | .reference _ => .null

/-! ### Application -/

/-- Runs a function on checked arguments; `visit i v` evaluates the expression of reference `i`. -/
def Function.run (visit : Nat → Value → Result) : Function → List Value → Result
  | .abs, [.number n] => .ok (.number n.abs)
  | .avg, [.array items] => mean items
  | .ceil, [.number n] => roundTo Double.ceil? n
  | .contains, [subject, search] => containsValue subject search
  | .endsWith, [.text s, .text t] => .ok (.bool (t.toList.isSuffixOf s.toList))
  | .floor, [.number n] => roundTo Double.floor? n
  | .join, [.text s, .array items] =>
    .ok (.text (s.intercalate (items.filterMap fun
      | .text t => some t
      | _ => none)))
  | .keys, [.object es] => .ok (.array (es.map fun (k, _) => Value.ofKey k))
  | .length, [.text s] => .ok (.int s.length)
  | .length, [.array items] => .ok (.int items.length)
  | .length, [.object es] => .ok (.int es.length)
  | .map, [.reference i, .array items] => do return .array (← items.mapM (visit i))
  | .max, [.array items] => bestOf .ok (fun c b => before b c) items
  | .min, [.array items] => bestOf .ok before items
  | .maxBy, [.array items, .reference i] =>
    bestOf (checkedKey visit i [.number, .string]) (fun c b => before b c) items
  | .minBy, [.array items, .reference i] =>
    bestOf (checkedKey visit i [.number, .string]) before items
  | .merge, args => mergeAll args
  | .notNull, args => .ok ((args.find? fun v => !v.isNull).getD .null)
  | .reverse, [.text s] => .ok (.text (String.ofList s.toList.reverse))
  | .reverse, [.array items] => .ok (.array items.reverse)
  | .sort, [.array items] => do return .array (← Sequence.sort before items)
  | .sortBy, [.array items, .reference i] => sortByExpression visit items i
  | .startsWith, [.text s, .text t] => .ok (.bool (t.toList.isPrefixOf s.toList))
  | .sum, [.array items] => ofComputed (Number.sum (numbersOf items))
  | .toArray, [.array items] => .ok (.array items)
  | .toArray, [v] => .ok (.array [v])
  | .toNumber, [v] => numberOf v
  | .toString, [.text s] => .ok (.text s)
  | .toString, [v] => .ok (.text (Json.write v))
  | .type, [v] => .ok (typeName v)
  | .values, [.object es] => .ok (.array (es.map Prod.snd))
  | _, _ => .error (.crash .wrongKind)

end Reshape.JmesPath
