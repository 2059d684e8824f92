import Reshape.Json.Parser
import Reshape.Text.Blank

/-! Tokens of JMESPath expressions. A literal between backticks is JSON, or else the text of a
string without its quotes. -/

namespace Reshape.JmesPath

inductive Comparator
  | eq
  | ne
  | lt
  | le
  | gt
  | ge
  deriving DecidableEq, Repr

inductive Token
  | dot
  | star
  | rbracket
  | comma
  | colon
  | current
  | lparen
  | rparen
  | lbrace
  | rbrace
  | lbracket
  | flatten
  | filter
  | pipe
  | or
  | and
  | reference
  | not
  | identifier (name : String)
  | quoted (name : String)
  | literal (v : Value)
  | number (n : Int)
  | compare (c : Comparator)
  | finish
  deriving Repr

/-- Why a text is no expression. Numerals with too many digits and literals nested too deep are
refused by the reader of numbers and of JSON, not by the grammar. -/
inductive Rejection
  | malformed (detail : String)
  | tooManyDigits
  | tooDeep
  deriving DecidableEq, Repr

def isStart (c : Char) : Bool := c.isAlpha || c == '_'

def isInner (c : Char) : Bool := c.isAlphanum || c == '_'

def simple? : Char → Option Token
  | '.' => some .dot
  | '*' => some .star
  | ']' => some .rbracket
  | ',' => some .comma
  | ':' => some .colon
  | '@' => some .current
  | '(' => some .lparen
  | ')' => some .rparen
  | '\x7b' => some .lbrace
  | '\x7d' => some .rbrace
  | _ => none

/-- The text up to a delimiter, and what follows it. A backslash keeps the next character from
closing and stays in the text. -/
def upTo (delimiter : Char) : List Char → Option (List Char × List Char)
  | [] => none
  | '\\' :: c :: rest => (upTo delimiter rest).map fun (a, b) => ('\\' :: c :: a, b)
  | c :: rest =>
    if c = delimiter then some ([], rest)
    else (upTo delimiter rest).map fun (a, b) => (c :: a, b)

/-- Drops the backslash of each escaped delimiter. -/
def unescape (delimiter : Char) : List Char → List Char
  | [] => []
  | '\\' :: c :: rest =>
    if c = delimiter then c :: unescape delimiter rest
    else '\\' :: unescape delimiter (c :: rest)
  | c :: rest => c :: unescape delimiter rest

/-- A JSON value, with a nesting limit passed on and any other fault left to the caller. -/
def jsonLiteral? (cs : List Char) : Except Rejection (Option Value) :=
  match Json.parseText .nearest (String.ofList cs) with
  | .ok v => .ok (some v)
  | .error .tooDeep => .error .tooDeep
  | .error _ => .ok none

def literal (cs : List Char) : Except Rejection Value := do
  let cs := unescape '`' cs
  match ← jsonLiteral? cs with
  | some v => return v
  | none =>
    match ← jsonLiteral? ('"' :: (cs.dropWhile Text.isBlank ++ ['"'])) with
    | some v => return v
    | none => .error (.malformed "bad literal")

def quotedName (cs : List Char) : Except Rejection String := do
  match ← jsonLiteral? ('"' :: (cs ++ ['"'])) with
  | some (.text s) => return s
  | _ => .error (.malformed "bad quoted identifier")

/-- A numeral of ASCII digits. -/
def numeral (negative : Bool) (ds : List Char) : Except Rejection Token :=
  if ds.isEmpty then .error (.malformed "unknown token '-'")
  else if ds.length > Json.digitLimit then .error .tooManyDigits
  else
    let n : Int := Json.natOfDigits ds
    .ok (.number (if negative then -n else n))

/-- The first token of a text that starts with no space. -/
def next (c : Char) (rest : List Char) : Except Rejection (Token × List Char) :=
  let pick (second : Char) (both single : Token) : Token × List Char :=
    match rest with
    | d :: more => if d = second then (both, more) else (single, rest)
    | [] => (single, rest)
  match simple? c with
  | some t => .ok (t, rest)
  | none =>
    if isStart c then
      .ok (.identifier (String.ofList (c :: rest.takeWhile isInner)), rest.dropWhile isInner)
    else if c = '[' then
      match rest with
      | ']' :: more => .ok (.flatten, more)
      | '?' :: more => .ok (.filter, more)
      | _ => .ok (.lbracket, rest)
    else if c = '\'' then
      match upTo '\'' rest with
      | some (s, more) => .ok (.literal (.text (String.ofList (unescape '\'' s))), more)
      | none => .error (.malformed "unclosed ' delimiter")
    else if c = '|' then .ok (pick '|' .or .pipe)
    else if c = '&' then .ok (pick '&' .and .reference)
    else if c = '`' then
      match upTo '`' rest with
      | some (s, more) => do
        let v ← literal s
        return (.literal v, more)
      | none => .error (.malformed "unclosed ` delimiter")
    else if c.isDigit then do
      let t ← numeral false (c :: rest.takeWhile Char.isDigit)
      return (t, rest.dropWhile Char.isDigit)
    else if c = '-' then do
      let t ← numeral true (rest.takeWhile Char.isDigit)
      return (t, rest.dropWhile Char.isDigit)
    else if c = '"' then
      match upTo '"' rest with
      | some (s, more) => do
        let name ← quotedName s
        return (.quoted name, more)
      | none => .error (.malformed "unclosed \" delimiter")
    else if c = '<' then .ok (pick '=' (.compare .le) (.compare .lt))
    else if c = '>' then .ok (pick '=' (.compare .ge) (.compare .gt))
    else if c = '!' then .ok (pick '=' (.compare .ne) .not)
    else if c = '=' then
      match rest with
      | '=' :: more => .ok (.compare .eq, more)
      | _ => .error (.malformed "unknown token '='")
    else .error (.malformed ("unknown token " ++ String.singleton c))

/-- All tokens of a text, the last one `finish`. Each step takes a character at least. -/
def scan : Nat → List Char → Except Rejection (List Token)
  | _, [] => .ok [.finish]
  | 0, _ => .ok [.finish]
  | fuel + 1, c :: rest =>
    if Json.isSpace c then scan fuel rest
    else do
      let (t, rest) ← next c rest
      let ts ← scan fuel rest
      return t :: ts

def tokens (s : String) : Except Rejection (List Token) :=
  if s.isEmpty then .error (.malformed "empty expression") else scan s.length s.toList

end Reshape.JmesPath
