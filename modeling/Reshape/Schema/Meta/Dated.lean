import Reshape.Schema.Meta.Terms

/-! The schemas of the schemas of the dated drafts: one for each vocabulary, and one that joins
them. The two drafts refer to a whole schema in different ways. -/

namespace Reshape.Schema.Meta

/-- What the documents of a dated draft have in common. -/
structure Edition where
  date : String
  /-- Refers to whichever schema is extended. -/
  itself : Value
  /-- Marks a document as one that can be extended. -/
  mark : String × Value

def edition2019 : Edition :=
  ⟨"2019-09", schema [("$recursiveRef", .text "#")], ("$recursiveAnchor", .bool true)⟩

def edition2020 : Edition :=
  ⟨"2020-12", schema [("$dynamicRef", .text "#meta")], ("$dynamicAnchor", .text "meta")⟩

namespace Edition

variable (e : Edition)

def document (path : String) (vocabulary : Fields) (title : String) (rest : Fields) : Value :=
  schema ([("$schema", .text (Dialect.folder e.date ++ "schema")),
    ("$id", .text (Dialect.folder e.date ++ path)), ("$vocabulary", schema vocabulary), e.mark,
    ("title", .text title)] ++ rest)

def vocabularyName (name : String) : String := Dialect.folder e.date ++ "vocab/" ++ name

def types : String × Value := ("type", texts ["object", "boolean"])

/-- The document of one vocabulary. -/
def vocabulary (name title : String) (rest : Fields) : Value :=
  e.document ("meta/" ++ name) [(e.vocabularyName name, .bool true)] title (types :: rest)

def schemaMap : Value := objectOf e.itself [("default", blank)]

def patternMap : Value :=
  objectOf e.itself
    [("propertyNames", schema [("format", .text "regex")]), ("default", blank)]

def defined (name : String) : Value := refer ("#/$defs/" ++ name)

/-! ### Vocabularies of both drafts -/

def conditions : Fields :=
  [("propertyNames", e.itself), ("if", e.itself), ("then", e.itself), ("else", e.itself),
    ("allOf", defined "schemaArray"), ("anyOf", defined "schemaArray"),
    ("oneOf", defined "schemaArray"), ("not", e.itself)]

def schemaArray : String × Value := ("$defs", schema [("schemaArray", someOf e.itself)])

def bounds : Fields :=
  [("multipleOf", typed "number" [("exclusiveMinimum", .int 0)]), ("maximum", number),
    ("exclusiveMaximum", number), ("minimum", number), ("exclusiveMinimum", number),
    ("maxLength", defined "nonNegativeInteger"),
    ("minLength", defined "nonNegativeIntegerDefault0"), ("pattern", formatted "regex"),
    ("maxItems", defined "nonNegativeInteger"),
    ("minItems", defined "nonNegativeIntegerDefault0"), ("uniqueItems", flag),
    ("maxContains", defined "nonNegativeInteger"),
    ("minContains",
      schema [("$ref", .text "#/$defs/nonNegativeInteger"), ("default", .int 1)]),
    ("maxProperties", defined "nonNegativeInteger"),
    ("minProperties", defined "nonNegativeIntegerDefault0"),
    ("required", defined "stringArray"),
    ("dependentRequired", objectOf (defined "stringArray") [])]

def constants : Fields :=
  [("const", .bool true), ("enum", typed "array" [("items", .bool true)])]

def typeProperty : String × Value := ("type", typeOrTypes (defined "simpleTypes"))

def validationDefinitions : Value :=
  schema
    [("nonNegativeInteger", typed "integer" [("minimum", .int 0)]),
      ("nonNegativeIntegerDefault0",
        schema [("$ref", .text "#/$defs/nonNegativeInteger"), ("default", .int 0)]),
      ("simpleTypes", oneOfTexts simpleTypes),
      ("stringArray",
        distinctTexts [("uniqueItems", .bool true), ("default", .array [])])]

def validation (properties : Fields) : Value :=
  e.vocabulary "validation" "Validation vocabulary meta-schema"
    [("properties", schema properties), ("$defs", validationDefinitions)]

def metaData : Value :=
  e.vocabulary "meta-data" "Meta-data vocabulary meta-schema"
    [("properties", schema
      [("title", string), ("description", string), ("default", .bool true),
        ("deprecated", flag), ("readOnly", flag), ("writeOnly", flag),
        ("examples", typed "array" [("items", .bool true)])])]

def format (name title : String) : Value :=
  e.vocabulary name title [("properties", schema [("format", string)])]

def content (first second : String) : Value :=
  e.vocabulary "content" "Content vocabulary meta-schema"
    [("properties", schema
      [(first, string), (second, string), ("contentSchema", e.itself)])]

/-- The document that joins vocabularies, given which of them must be understood. -/
def joined (names : List (String × Bool)) (rest : Fields) : Value :=
  e.document "schema" (names.map fun (n, b) => (e.vocabularyName n, .bool b))
    "Core and Validation specifications meta-schema"
    ([("allOf", .array (names.map fun (n, _) => refer ("meta/" ++ n))), types] ++ rest)

end Edition

open Edition

/-! ### The draft of 2019 -/

namespace Draft2019

def itself : Value := edition2019.itself

def main : Value :=
  edition2019.joined
    [("core", true), ("applicator", true), ("validation", true), ("meta-data", true),
      ("format", false), ("content", true)]
    [("properties", schema
      [("definitions", objectOf itself [("default", blank)]),
        ("dependencies",
          objectOf (anyOf [itself, refer "meta/validation#/$defs/stringArray"]) [])])]

def core : Value :=
  edition2019.vocabulary "core" "Core vocabulary meta-schema"
    [("properties", schema
      [("$id", typed "string"
          [("format", .text "uri-reference"), ("pattern", .text "^[^#]*#?$")]),
        ("$schema", formatted "uri"),
        ("$anchor", typed "string" [("pattern", .text "^[A-Za-z][-A-Za-z0-9.:_]*$")]),
        ("$ref", formatted "uri-reference"), ("$recursiveRef", formatted "uri-reference"),
        ("$recursiveAnchor", flag),
        ("$vocabulary",
          typed "object" [("propertyNames", formatted "uri"),
            ("additionalProperties", boolean)]),
        ("$comment", string), ("$defs", edition2019.schemaMap)])]

def applicator : Value :=
  edition2019.vocabulary "applicator" "Applicator vocabulary meta-schema"
    [("properties", schema
      ([("additionalItems", itself), ("unevaluatedItems", itself),
        ("items", anyOf [itself, defined "schemaArray"]), ("contains", itself),
        ("additionalProperties", itself), ("unevaluatedProperties", itself),
        ("properties", edition2019.schemaMap), ("patternProperties", edition2019.patternMap),
        ("dependentSchemas", objectOf itself [])] ++ edition2019.conditions)),
      edition2019.schemaArray]

def documents : List Value :=
  [main, core, applicator, edition2019.validation (bounds ++ constants ++ [typeProperty]),
    edition2019.metaData, edition2019.format "format" "Format vocabulary meta-schema",
    edition2019.content "contentMediaType" "contentEncoding"]

end Draft2019

/-! ### The draft of 2020 -/

namespace Draft2020

def itself : Value := edition2020.itself

def retired : String × Value := ("deprecated", .bool true)

def main : Value :=
  edition2020.joined
    [("core", true), ("applicator", true), ("unevaluated", true), ("validation", true),
      ("meta-data", true), ("format-annotation", true), ("content", true)]
    [("properties", schema
      [("definitions", objectOf itself [retired, ("default", blank)]),
        ("dependencies",
          objectOf (anyOf [itself, refer "meta/validation#/$defs/stringArray"])
            [retired, ("default", blank)]),
        ("$recursiveAnchor",
          schema [("$ref", .text "meta/core#/$defs/anchorString"), retired]),
        ("$recursiveRef",
          schema [("$ref", .text "meta/core#/$defs/uriReferenceString"), retired])])]

def core : Value :=
  edition2020.vocabulary "core" "Core vocabulary meta-schema"
    [("properties", schema
      [("$id",
          schema [("$ref", .text "#/$defs/uriReferenceString"),
            ("pattern", .text "^[^#]*#?$")]),
        ("$schema", defined "uriString"), ("$ref", defined "uriReferenceString"),
        ("$anchor", defined "anchorString"), ("$dynamicRef", defined "uriReferenceString"),
        ("$dynamicAnchor", defined "anchorString"),
        ("$vocabulary",
          typed "object" [("propertyNames", defined "uriString"),
            ("additionalProperties", boolean)]),
        ("$comment", string), ("$defs", objectOf itself [])]),
      ("$defs", schema
        [("anchorString", typed "string" [("pattern", .text "^[A-Za-z_][-A-Za-z0-9._]*$")]),
          ("uriString", formatted "uri"), ("uriReferenceString", formatted "uri-reference")])]

def applicator : Value :=
  edition2020.vocabulary "applicator" "Applicator vocabulary meta-schema"
    [("properties", schema
      ([("prefixItems", defined "schemaArray"), ("items", itself), ("contains", itself),
        ("additionalProperties", itself), ("properties", edition2020.schemaMap),
        ("patternProperties", edition2020.patternMap),
        ("dependentSchemas", edition2020.schemaMap)] ++ edition2020.conditions)),
      edition2020.schemaArray]

def unevaluated : Value :=
  edition2020.vocabulary "unevaluated" "Unevaluated applicator vocabulary meta-schema"
    [("properties", schema
      [("unevaluatedItems", itself), ("unevaluatedProperties", itself)])]

def documents : List Value :=
  [main, core, applicator, unevaluated,
    edition2020.validation (typeProperty :: constants ++ bounds), edition2020.metaData,
    edition2020.format "format-annotation"
      "Format vocabulary meta-schema for annotation results",
    edition2020.format "format-assertion" "Format vocabulary meta-schema for assertion results",
    edition2020.content "contentEncoding" "contentMediaType"]

end Draft2020

end Reshape.Schema.Meta
