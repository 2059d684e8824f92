import Reshape.Text.Encoding

/-! Why a JSON text cannot be read, and where. Places count code points; a line feed ends a line. -/

namespace Reshape.Json

inductive Cause
  | value
  | name
  | colon
  | comma
  | extraData
  | unterminated
  | escape
  | unicodeEscape
  | control
  | mark
  deriving DecidableEq, Repr

def Cause.text : Cause → String
  | .value => "Expecting value"
  | .name => "Expecting property name enclosed in double quotes"
  | .colon => "Expecting ':' delimiter"
  | .comma => "Expecting ',' delimiter"
  | .extraData => "Extra data"
  | .unterminated => "Unterminated string starting at"
  | .escape => "Invalid \\escape"
  | .unicodeEscape => "Invalid \\uXXXX escape"
  | .control => "Invalid control character at"
  | .mark => "Unexpected UTF-8 BOM (decode using utf-8-sig)"

/-- A place in a text. Lines and columns count from one, the offset from zero. -/
structure Place where
  line : Nat
  column : Nat
  offset : Nat
  deriving DecidableEq, Repr

/-- The place behind `consumed`. -/
def Place.behind (consumed : List Char) : Place :=
  { line := consumed.count '\n' + 1
    column := (consumed.reverse.takeWhile (· != '\n')).length + 1
    offset := consumed.length }

inductive Fault
  | malformed (cause : Cause) (place : Place)
  | tooManyDigits (count : Nat)
  | tooDeep
  | outOfRange
  | undecodable (fault : Text.DecodeFault)
  deriving DecidableEq, Repr

def Fault.message : Fault → String
  | .malformed c p =>
    c.text ++ ": line " ++ toString p.line ++ " column " ++ toString p.column ++
      " (char " ++ toString p.offset ++ ")"
  | .tooManyDigits n =>
    "Exceeds the limit (4300 digits) for integer string conversion: value has " ++ toString n ++
      " digits; use sys.set_int_max_str_digits() to increase the limit"
  | .tooDeep => "maximum recursion depth exceeded"
  | .outOfRange => "decimal exponent out of range"
  | .undecodable f => f.message

end Reshape.Json
