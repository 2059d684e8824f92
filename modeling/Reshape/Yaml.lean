import Reshape.Yaml.Node.Parser

/-! Reading YAML texts. -/

namespace Reshape.Yaml

/-- The value of the one document in a text. -/
def parse (cs : List Char) : Except Fault Value := do
  (← Node.ofTokens (tokens cs)).value.mapError Flaw.fault

end Reshape.Yaml
