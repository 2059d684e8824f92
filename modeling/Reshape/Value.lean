import Reshape.Calendar

/-! Values of documents and schemas. An object is a list of entries in the order in which its keys
were first written. -/

namespace Reshape

/-- What YAML can hold and JSON cannot. Of a set only the displayed members are known. A `loop` is an
array or an object that stands inside of itself, met again there. -/
inductive Special
  | date (d : Date)
  | moment (m : Moment)
  | bytes (bs : List UInt8)
  | set (members : List String)
  | loop
  deriving DecidableEq, Repr

/-- A key of an object. JSON gives text keys only; YAML gives other scalars too. -/
inductive Key
  | text (s : String)
  | null
  | bool (b : Bool)
  | number (n : Number)
  | special (s : Special)
  deriving DecidableEq, Repr

instance : Coe String Key := ⟨.text⟩

/-- A value. A `reference` is an unevaluated expression of a query, named by its place in the
query's table of such expressions; only evaluating a query makes one. -/
inductive Value
  | null
  | bool (b : Bool)
  | number (n : Number)
  | text (s : String)
  | array (items : List Value)
  | object (entries : List (Key × Value))
  | special (s : Special)
  | reference (index : Nat)
  deriving Repr, Inhabited

/-! ### Entries -/

namespace Entries

variable {β : Type}

/-- The value of a key. -/
def find? (k : Key) : List (Key × β) → Option β
  | [] => none
  | (j, v) :: rest => if j = k then some v else find? k rest

/-- A new key goes to the end; a key that is there keeps its place and gets the new value. -/
def insert (k : Key) (v : β) : List (Key × β) → List (Key × β)
  | [] => [(k, v)]
  | (j, w) :: rest => if j = k then (j, v) :: rest else (j, w) :: insert k v rest

def keys (es : List (Key × β)) : List Key := es.map Prod.fst

def has (k : Key) (es : List (Key × β)) : Bool := (find? k es).isSome

/-- Entries written one after the other; a repeated key keeps its first place and its last value. -/
def ofList (es : List (Key × β)) : List (Key × β) :=
  es.foldl (fun acc (k, v) => insert k v acc) []

end Entries

/-! ### Kinds -/

/-- What a value is, as messages name it. -/
inductive Kind
  | null
  | bool
  | int
  | double
  | decimal
  | text
  | array
  | object
  | date
  | moment
  | bytes
  | set
  | reference
  deriving DecidableEq, Repr

def Special.kind : Special → Kind
  | .date _ => .date
  | .moment _ => .moment
  | .bytes _ => .bytes
  | .set _ => .set
  | .loop => .object

def Kind.name : Kind → String
  | .null => "NoneType"
  | .bool => "bool"
  | .int => "int"
  | .double => "float"
  | .decimal => "Decimal"
  | .text => "str"
  | .array => "list"
  | .object => "dict"
  | .date => "date"
  | .moment => "datetime"
  | .bytes => "bytes"
  | .set => "set"
  | .reference => "_Expression"

namespace Value

def kind : Value → Kind
  | .null => .null
  | .bool _ => .bool
  | .number (.int _) => .int
  | .number (.double _) => .double
  | .number (.decimal _) => .decimal
  | .text _ => .text
  | .array _ => .array
  | .object _ => .object
  | .special s => s.kind
  | .reference _ => .reference

abbrev int (n : Int) : Value := .number (.int n)

abbrev double (d : Double) : Value := .number (.double d)

abbrev decimal (d : Decimal) : Value := .number (.decimal d)

/-- A key as a value. -/
def ofKey : Key → Value
  | .text s => .text s
  | .null => .null
  | .bool b => .bool b
  | .number n => .number n
  | .special s => .special s

/-- A value as a key; arrays, objects, sets and loops are none. -/
def toKey? : Value → Option Key
  | .null => some .null
  | .bool b => some (.bool b)
  | .number n => some (.number n)
  | .text s => some (.text s)
  | .special (.set _) | .special .loop => none
  | .special s => some (.special s)
  | .array _ | .object _ | .reference _ => none

def isNull : Value → Bool
  | .null => true
  | _ => false

/-- The value of a text key of an object. -/
def get? (v : Value) (key : String) : Option Value :=
  match v with
  | .object es => Entries.find? (.text key) es
  | _ => none

/-- An object with text keys. -/
def ofFields (fields : List (String × Value)) : Value :=
  .object (fields.map fun (k, v) => (.text k, v))

end Value

end Reshape
