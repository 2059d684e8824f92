import Reshape.Dialect
import Reshape.Value

/-! The terms in which the schemas of schemas are written: the kinds of schema that all of them use
again and again. -/

namespace Reshape.Schema.Meta

abbrev Fields := List (String × Value)

def schema (fields : Fields) : Value := .ofFields fields

def texts (ss : List String) : Value := .array (ss.map .text)

/-- An object without entries, which stands for a schema that holds for everything. -/
def blank : Value := .object []

/-! ### Schemas of one keyword -/

def refer (target : String) : Value := schema [("$ref", .text target)]

def anyOf (schemas : List Value) : Value := schema [("anyOf", .array schemas)]

def oneOfTexts (ss : List String) : Value := schema [("enum", texts ss)]

/-! ### Types -/

def typed (name : String) (more : Fields) : Value := schema (("type", .text name) :: more)

def string : Value := typed "string" []

def number : Value := typed "number" []

def boolean : Value := typed "boolean" []

def array : Value := typed "array" []

/-- A text of a format. -/
def formatted (format : String) : Value := typed "string" [("format", .text format)]

/-- A truth value that is false when it is not given. -/
def flag : Value := typed "boolean" [("default", .bool false)]

def simpleTypes : List String :=
  ["array", "boolean", "integer", "null", "number", "object", "string"]

/-! ### Collections -/

/-- An object whose members are all of one schema. -/
def objectOf (member : Value) (more : Fields) : Value :=
  typed "object" (("additionalProperties", member) :: more)

/-- An array of at least one item, all of one schema. -/
def someOf (item : Value) : Value := typed "array" [("minItems", .int 1), ("items", item)]

/-- An array of different texts. -/
def distinctTexts (more : Fields) : Value :=
  typed "array" ([("items", string)] ++ more)

/-- One type or an array of different types. -/
def typeOrTypes (type : Value) : Value :=
  anyOf [type,
    typed "array" [("items", type), ("minItems", .int 1), ("uniqueItems", .bool true)]]

end Reshape.Schema.Meta
