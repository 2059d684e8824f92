import Reshape.Schema.Coverage
import Reshape.Schema.Keyword.Combination
import Reshape.Schema.Keyword.Draft3

/-! The keywords of each dialect. A keyword that a dialect does not have is not checked. -/

namespace Reshape.Schema.Keyword

/-- How a keyword is checked. -/
abbrev Rule := Check → Verdict

abbrev Rules := List (String × Rule)

/-- Keywords of every dialect. -/
def common : Rules :=
  [("$ref", Check.ref), ("enum", Check.enum), ("format", Check.format),
    ("minLength", Check.minLength), ("maxLength", Check.maxLength), ("pattern", Check.pattern),
    ("minItems", Check.minItems), ("maxItems", Check.maxItems),
    ("uniqueItems", Check.uniqueItems), ("patternProperties", Check.patternProperties),
    ("additionalProperties", Check.additionalProperties)]

/-- Keywords from the fourth draft on. -/
def fourth : Rules :=
  [("type", Check.type), ("multipleOf", Check.multipleOf), ("properties", Check.properties),
    ("required", Check.required), ("minProperties", Check.minProperties),
    ("maxProperties", Check.maxProperties), ("allOf", Check.allOf), ("anyOf", Check.anyOf),
    ("oneOf", Check.oneOf), ("not", Check.not)]

/-- Keywords from the sixth draft on. -/
def sixth : Rules :=
  [("const", Check.const), ("minimum", Check.minimum), ("maximum", Check.maximum),
    ("exclusiveMinimum", Check.exclusiveMinimum), ("exclusiveMaximum", Check.exclusiveMaximum),
    ("propertyNames", Check.propertyNames)]

/-- Bounds whose exclusion is a keyword of its own. -/
def oldestBounds : Rules := [("minimum", Check.olderMinimum), ("maximum", Check.olderMaximum)]

def conditional : Rules := [("if", Check.conditional)]

def olderItems : Rules :=
  [("items", Check.olderItems), ("additionalItems", Check.additionalItems)]

def oldestItems : Rules :=
  [("items", Check.oldestItems), ("additionalItems", Check.additionalItems)]

def third : Rules :=
  [("type", Check.typeOrSchema), ("disallow", Check.disallow), ("extends", Check.extending),
    ("divisibleBy", Check.multipleOf), ("properties", Check.oldestProperties),
    ("dependencies", Check.oldestDependencies)]

def dependencies : Rules := [("dependencies", Check.dependencies)]

/-- Keywords of the sixth and the seventh draft only. -/
def older : Rules := ("contains", Check.olderContains) :: olderItems ++ dependencies

/-- Keywords of the dated dialects. -/
def dated : Rules :=
  [("contains", Check.contains), ("dependentRequired", Check.dependentRequired),
    ("dependentSchemas", Check.dependentSchemas), ("unevaluatedItems", Check.unevaluatedItems),
    ("unevaluatedProperties", Check.unevaluatedProperties)]

def rules : Dialect → Rules
  | .draft3 => common ++ oldestBounds ++ oldestItems ++ third
  | .draft4 => common ++ fourth ++ oldestBounds ++ oldestItems ++ dependencies
  | .draft6 => common ++ fourth ++ sixth ++ older
  | .draft7 => common ++ fourth ++ sixth ++ older ++ conditional
  | .draft2019 =>
    common ++ fourth ++ sixth ++ conditional ++ dated ++ olderItems ++
      [("$recursiveRef", Check.recursiveRef)]
  | .draft2020 =>
    common ++ fourth ++ sixth ++ conditional ++ dated ++
      [("$dynamicRef", Check.ref), ("prefixItems", Check.prefixItems),
        ("items", Check.laterItems)]

end Reshape.Schema.Keyword
