import Reshape.Schema.Meta.Dated
import Reshape.Schema.Meta.Draft3
import Reshape.Schema.Meta.Numbered

/-! The schemas of schemas: what a dialect asks of the schemas that are written in it. -/

namespace Reshape.Schema.Meta

/-- The document that the schemas of a dialect are checked against. -/
def document : Dialect → Value
  | .draft3 => draft3
  | .draft4 => draft4
  | .draft6 => draft6
  | .draft7 => draft7
  | .draft2019 => Draft2019.main
  | .draft2020 => Draft2020.main

/-- Every document, with the dialect that it is written in. -/
def documents : List (Dialect × Value) :=
  [(.draft3, draft3), (.draft4, draft4), (.draft6, draft6), (.draft7, draft7)] ++
    Draft2019.documents.map (.draft2019, ·) ++ Draft2020.documents.map (.draft2020, ·)

end Reshape.Schema.Meta
