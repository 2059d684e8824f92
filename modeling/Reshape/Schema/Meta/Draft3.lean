import Reshape.Schema.Meta.Terms

/-! The schema of the schemas of the third draft. -/

namespace Reshape.Schema.Meta

/-- One of several types, which may be names or schemas. -/
def anyType (types : List Value) (more : Fields) : Value :=
  schema (("type", .array types) :: more)

namespace Draft3

def itself : Value := refer "#"

def empty : String × Value := ("default", blank)

def typeProperties : Fields :=
  [("type", anyType [.text "string", .text "array"]
      [("items", anyType [.text "string", itself] []), ("uniqueItems", .bool true),
        ("default", .text "any")]),
    ("properties", objectOf itself [empty]), ("patternProperties", objectOf itself [empty]),
    ("additionalProperties", anyType [itself, .text "boolean"] [empty]),
    ("items", anyType [itself, .text "array"] [("items", itself), empty]),
    ("additionalItems", anyType [itself, .text "boolean"] [empty]),
    ("required", flag),
    ("dependencies", objectOf
      (anyType [.text "string", .text "array", itself] [("items", string)]) [empty])]

def boundProperties : Fields :=
  [("minimum", number), ("maximum", number), ("exclusiveMinimum", flag),
    ("exclusiveMaximum", flag),
    ("minItems", typed "integer" [("minimum", .int 0), ("default", .int 0)]),
    ("maxItems", typed "integer" [("minimum", .int 0)]), ("uniqueItems", flag),
    ("pattern", formatted "regex"),
    ("minLength", typed "integer" [("minimum", .int 0), ("default", .int 0)]),
    ("maxLength", typed "integer" []),
    ("enum", typed "array" [("minItems", .int 1), ("uniqueItems", .bool true)])]

def otherProperties : Fields :=
  [("default", typed "any" []), ("title", string), ("description", string), ("format", string),
    ("divisibleBy", typed "number"
      [("minimum", .int 0), ("exclusiveMinimum", .bool true), ("default", .int 1)]),
    ("disallow", anyType [.text "string", .text "array"]
      [("items", anyType [.text "string", itself] []), ("uniqueItems", .bool true)]),
    ("extends", anyType [itself, .text "array"] [("items", itself), empty]),
    ("id", string), ("$ref", string), ("$schema", formatted "uri")]

end Draft3

def draft3 : Value :=
  schema
    [("$schema", .text (Dialect.draft3.uri ++ "#")), ("id", .text (Dialect.draft3.uri ++ "#")),
      ("type", .text "object"),
      ("properties",
        schema (Draft3.typeProperties ++ Draft3.boundProperties ++ Draft3.otherProperties)),
      ("dependencies", schema
        [("exclusiveMinimum", .text "minimum"), ("exclusiveMaximum", .text "maximum")]),
      ("default", blank)]

end Reshape.Schema.Meta
