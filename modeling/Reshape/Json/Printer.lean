import Reshape.Value.Display

/-! Compact JSON in ASCII: no space, and every character beyond ASCII as an escape, those beyond the
basic plane as a pair of surrogates and lone surrogates as themselves. -/

namespace Reshape.Json

open Text (codeOf)

def escape16 (n : Nat) : List Char := '\\' :: 'u' :: Text.hex 4 n

def writeChar (c : Char) : List Char :=
  if c = '"' || c = '\\' then ['\\', c]
  else if c = '\n' then ['\\', 'n']
  else if c = '\r' then ['\\', 'r']
  else if c = '\t' then ['\\', 't']
  else if c = '\x08' then ['\\', 'b']
  else if c = '\x0c' then ['\\', 'f']
  else if 0x20 ≤ c.toNat && c.toNat < 0x7f then [c]
  else if codeOf c < 0x10000 then escape16 (codeOf c)
  else
    let n := c.toNat - 0x10000
    escape16 (0xd800 + n / 0x400) ++ escape16 (0xdc00 + n % 0x400)

def writeText (s : String) : String :=
  String.ofList ('"' :: (s.toList.flatMap writeChar ++ ['"']))

def writeNumber : Number → String
  | .double .nan => "NaN"
  | .double (.infinity n) => if n then "-Infinity" else "Infinity"
  | n => n.text

/-- Keys other than texts are written as the text of their value. -/
def writeKey : Key → String
  | .text s => writeText s
  | .null => "\"null\""
  | .bool b => if b then "\"true\"" else "\"false\""
  | .number n => "\"" ++ writeNumber n ++ "\""
  | .special s => writeText s.text

mutual

def write : Value → String
  | .null => "null"
  | .bool b => if b then "true" else "false"
  | .number n => writeNumber n
  | .text s => writeText s
  | .array items => "[" ++ ",".intercalate (writeItems items) ++ "]"
  | .object entries => "\x7b" ++ ",".intercalate (writeEntries entries) ++ "\x7d"
  | .special s => writeText s.text
  | .reference i => writeText ("expression " ++ toString i)

def writeItems : List Value → List String
  | [] => []
  | v :: rest => write v :: writeItems rest

def writeEntries : List (Key × Value) → List String
  | [] => []
  | (k, v) :: rest => (writeKey k ++ ":" ++ write v) :: writeEntries rest

end

end Reshape.Json
