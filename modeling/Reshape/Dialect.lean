/-! The dialects of JSON Schema that schemas may be written in. The oldest one can be declared by a
schema but not chosen in settings. -/

namespace Reshape

inductive Dialect
  | draft3
  | draft4
  | draft6
  | draft7
  | draft2019
  | draft2020
  deriving DecidableEq, Repr, Inhabited

namespace Dialect

def name : Dialect → String
  | .draft3 => "draft3"
  | .draft4 => "draft4"
  | .draft6 => "draft6"
  | .draft7 => "draft7"
  | .draft2019 => "draft2019-09"
  | .draft2020 => "draft2020-12"

def all : List Dialect := [.draft3, .draft4, .draft6, .draft7, .draft2019, .draft2020]

/-- The dialects that settings may name. -/
def selectable : List Dialect := all.drop 1

def ofName? (s : String) : Option Dialect := selectable.find? fun d => d.name == s

/-- Where the documents of a dated dialect lie. -/
def folder (date : String) : String := "https://json-schema.org/draft/" ++ date ++ "/"

/-- The identifier of a numbered dialect. -/
def numbered (number : String) : String := "http://json-schema.org/draft-" ++ number ++ "/schema"

/-- The identifier of a dialect, without its empty fragment. -/
def uri : Dialect → String
  | .draft3 => numbered "03"
  | .draft4 => numbered "04"
  | .draft6 => numbered "06"
  | .draft7 => numbered "07"
  | .draft2019 => folder "2019-09" ++ "schema"
  | .draft2020 => folder "2020-12" ++ "schema"

def ofUri? (s : String) : Option Dialect := all.find? fun d => d.uri == s

/-- Whether a dialect is named by its year; the others are numbered. -/
def isDated : Dialect → Bool
  | .draft2019 => true
  | .draft2020 => true
  | _ => false

/-- The first two dialects here know no truth values as schemas and exclude bounds by a flag. -/
def isOldest : Dialect → Bool
  | .draft3 => true
  | .draft4 => true
  | _ => false

end Dialect

end Reshape
