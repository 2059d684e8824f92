import Reshape.Schema.Meta.Terms

/-! The schemas of the schemas of the fourth, the sixth and the seventh draft. -/

namespace Reshape.Schema.Meta

namespace Numbered

def itself : Value := refer "#"

def defined (name : String) : Value := refer ("#/definitions/" ++ name)

/-- Schemas by name. -/
def schemaMap : Value := objectOf itself [("default", blank)]

/-- Schemas by patterns. -/
def patternMap : Value :=
  objectOf itself [("propertyNames", schema [("format", .text "regex")]), ("default", blank)]

/-- The definitions; two of them are named after the word for a count. -/
def definitions (count : String) (stringArray : Value) : Value :=
  schema
    [("schemaArray", someOf itself),
      (count, typed "integer" [("minimum", .int 0)]),
      (count ++ "Default0",
        schema [("allOf", .array [defined count, schema [("default", .int 0)]])]),
      ("simpleTypes", oneOfTexts simpleTypes), ("stringArray", stringArray)]

def dependencies : Value := objectOf (anyOf [itself, defined "stringArray"]) []

/-- A schema or an array of schemas. -/
def items (default : Value) : Value :=
  schema [("anyOf", .array [itself, defined "schemaArray"]), ("default", default)]

def combinations : Fields :=
  [("allOf", defined "schemaArray"), ("anyOf", defined "schemaArray"),
    ("oneOf", defined "schemaArray"), ("not", itself)]

def lengths (count : String) : Fields :=
  [("maxLength", defined count), ("minLength", defined (count ++ "Default0")),
    ("pattern", formatted "regex")]

def itemCounts (count : String) : Fields :=
  [("maxItems", defined count), ("minItems", defined (count ++ "Default0")),
    ("uniqueItems", flag)]

def memberCounts (count : String) : Fields :=
  [("maxProperties", defined count), ("minProperties", defined (count ++ "Default0")),
    ("required", defined "stringArray")]

end Numbered

open Numbered

/-! ### The fourth draft -/

namespace Draft4

def truthOrSchema : Value :=
  schema [("anyOf", .array [boolean, itself]), ("default", blank)]

def properties : Fields :=
  [("id", string), ("$schema", string), ("title", string), ("description", string),
    ("default", blank),
    ("multipleOf", typed "number" [("minimum", .int 0), ("exclusiveMinimum", .bool true)]),
    ("maximum", number), ("exclusiveMaximum", flag), ("minimum", number),
    ("exclusiveMinimum", flag)] ++
  lengths "positiveInteger" ++
  [("additionalItems", truthOrSchema), ("items", items blank)] ++
  itemCounts "positiveInteger" ++
  memberCounts "positiveInteger" ++
  [("additionalProperties", truthOrSchema), ("definitions", schemaMap),
    ("properties", schemaMap), ("patternProperties", schemaMap),
    ("dependencies", dependencies),
    ("enum", typed "array" [("minItems", .int 1), ("uniqueItems", .bool true)]),
    ("type", typeOrTypes (defined "simpleTypes")), ("format", string)] ++
  combinations

end Draft4

def draft4 : Value :=
  schema
    [("id", .text (Dialect.draft4.uri ++ "#")), ("$schema", .text (Dialect.draft4.uri ++ "#")),
      ("description", .text "Core schema meta-schema"),
      ("definitions", definitions "positiveInteger"
        (distinctTexts [("minItems", .int 1), ("uniqueItems", .bool true)])),
      ("type", .text "object"), ("properties", schema Draft4.properties),
      ("dependencies", schema
        [("exclusiveMaximum", texts ["maximum"]), ("exclusiveMinimum", texts ["minimum"])]),
      ("default", blank)]

/-! ### The sixth and the seventh draft -/

namespace Draft6

def identifiers : Fields :=
  [("$id", formatted "uri-reference"), ("$schema", formatted "uri"),
    ("$ref", formatted "uri-reference")]

def numbers : Fields :=
  [("multipleOf", typed "number" [("exclusiveMinimum", .int 0)]), ("maximum", number),
    ("exclusiveMaximum", number), ("minimum", number), ("exclusiveMinimum", number)] ++
  lengths "nonNegativeInteger"

/-- Keywords on parts of an instance, where `everything` is the schema that always holds. -/
def parts (everything : Value) : Fields :=
  [("additionalItems", itself), ("items", items everything)] ++
  itemCounts "nonNegativeInteger" ++
  [("contains", itself)] ++
  memberCounts "nonNegativeInteger" ++
  [("additionalProperties", itself), ("definitions", schemaMap), ("properties", schemaMap)]

def properties : Fields :=
  identifiers ++
  [("title", string), ("description", string), ("default", blank),
    ("examples", typed "array" [("items", blank)])] ++
  numbers ++ parts blank ++
  [("patternProperties", patternMap), ("dependencies", dependencies), ("propertyNames", itself),
    ("const", blank), ("enum", array), ("type", typeOrTypes (defined "simpleTypes")),
    ("format", string)] ++
  combinations

end Draft6

namespace Draft7

def properties : Fields :=
  Draft6.identifiers ++
  [("$comment", string), ("title", string), ("description", string), ("default", .bool true),
    ("readOnly", flag), ("examples", typed "array" [("items", .bool true)])] ++
  Draft6.numbers ++ Draft6.parts (.bool true) ++
  [("patternProperties", patternMap), ("dependencies", dependencies), ("propertyNames", itself),
    ("const", .bool true), ("enum", typed "array" [("items", .bool true)]),
    ("type", typeOrTypes (defined "simpleTypes")), ("format", string),
    ("contentMediaType", string), ("contentEncoding", string), ("if", itself),
    ("then", itself), ("else", itself)] ++
  combinations

end Draft7

/-- A draft whose schemas are objects or truth values. -/
def withTruths (d : Dialect) (properties : Fields) (default : Value) : Value :=
  schema
    [("$schema", .text (d.uri ++ "#")), ("$id", .text (d.uri ++ "#")),
      ("title", .text "Core schema meta-schema"),
      ("definitions", definitions "nonNegativeInteger"
        (distinctTexts [("uniqueItems", .bool true), ("default", .array [])])),
      ("type", texts ["object", "boolean"]), ("properties", schema properties),
      ("default", default)]

def draft6 : Value := withTruths .draft6 Draft6.properties blank

def draft7 : Value := withTruths .draft7 Draft7.properties (.bool true)

end Reshape.Schema.Meta
