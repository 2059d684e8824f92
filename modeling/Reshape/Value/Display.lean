import Reshape.Value
import Reshape.Text.Quoted

/-! Values in messages: quoted strings, brackets around items, braces around entries. -/

namespace Reshape

def Number.display : Number → String
  | .decimal d => "Decimal('" ++ d.text ++ "')"
  | n => n.text

def displayTruth (b : Bool) : String := if b then "True" else "False"

/-! ### Values of files -/

def Special.display : Special → String
  | .date d => d.display
  | .moment m => m.display
  | .bytes bs => Text.quotedBytes bs
  | .set [] => "set()"
  | .set members => "\x7b" ++ ", ".intercalate members ++ "\x7d"
  | .loop => "\x7b...\x7d"

def Special.text : Special → String
  | .date d => d.text
  | .moment m => m.text
  | s => s.display

/-! ### Keys and values -/

/-- A key as it stands in a display of its object. -/
def Key.display : Key → String
  | .text s => Text.quoted s
  | .null => "None"
  | .bool b => displayTruth b
  | .number n => n.display
  | .special s => s.display

/-- A key as it stands in a path: a text key unquoted. -/
def Key.inPath : Key → String
  | .text s => s
  | .number n => n.text
  | .special s => s.text
  | k => k.display

namespace Value

/-- Items between brackets. -/
def bracketed (opening : String) (items : List String) (closing : String) : String :=
  opening ++ ", ".intercalate items ++ closing

mutual

def display : Value → String
  | .null => "None"
  | .bool b => displayTruth b
  | .number n => n.display
  | .text s => Text.quoted s
  | .array items => bracketed "[" (displayItems items) "]"
  | .object entries => bracketed "\x7b" (displayEntries entries) "\x7d"
  | .special s => s.display
  | .reference _ => "<expression>"

def displayItems : List Value → List String
  | [] => []
  | v :: rest => v.display :: displayItems rest

def displayEntries : List (Key × Value) → List String
  | [] => []
  | (k, v) :: rest => (k.display ++ ": " ++ v.display) :: displayEntries rest

end

end Value

end Reshape
