import Reshape.Json.Numeral
import Reshape.Text.Blank
import Reshape.Text.Digit

/-! Tokens of JSONPath expressions. A name stands bare or in quotes, a bare minus sign directly
before digits belongs to the number, and the direction of a sort key may follow a comma. -/

namespace Reshape.JsonPath

inductive Comparison
  | eq
  | ne
  | lt
  | le
  | gt
  | ge
  deriving DecidableEq, Repr

inductive Token
  | star
  | dot
  | descend
  | lbracket
  | rbracket
  | lparen
  | rparen
  | root
  | this
  | comma
  | colon
  | question
  | plus
  | minus
  | union
  | intersect
  | both
  | either
  | not
  | whereHas
  | whereNot
  | direction (descending : Bool)
  | name (s : String)
  | quoted (s : String)
  | operator (s : String)
  | whole (n : Int)
  | fraction (d : Double)
  | compare (c : Comparison)
  deriving DecidableEq, Repr

/-! ### Names -/

def isStart (c : Char) : Bool := c.isAlpha || c == '_'

def isInner (c : Char) : Bool := c.isAlphanum || c == '_' || c == '@' || c == '-'

/-- Words with a meaning of their own. -/
def word : String → Token
  | "where" => .whereHas
  | "wherenot" => .whereNot
  | s => .name s

/-- The text up to a closing quote, and what follows it. A backslash stands for the next character,
which is no line feed. -/
def upTo (quote : Char) : List Char → Option (List Char × List Char)
  | [] => none
  | '\\' :: c :: rest =>
    if c = '\n' then none else (upTo quote rest).map fun (a, b) => (c :: a, b)
  | c :: rest =>
    if c = quote then some ([], rest)
    else if c = '\\' then none
    else (upTo quote rest).map fun (a, b) => (c :: a, b)

/-! ### Numbers -/

def isDigit (c : Char) : Bool := (Text.digitValue? c).isSome

/-- Digits of any script as those of ASCII. -/
def plainDigits (ds : List Char) : List Char :=
  ds.filterMap fun c => (Text.digitValue? c).map Nat.digitChar

/-- A whole number, or one with a fraction. -/
def numeral (negative : Bool) (cs : List Char) : Option (Token × List Char) :=
  let ds := plainDigits (cs.takeWhile isDigit)
  let rest := cs.dropWhile isDigit
  let fraction : List Char := match rest with
    | '.' :: more => more.takeWhile isDigit
    | _ => []
  if fraction.isEmpty then
    if ds.length > Json.digitLimit then none
    else some (.whole (Json.Numeral.toInt ⟨negative, ds, none, none⟩), rest)
  else
    some (.fraction (Json.nearestDouble
      (Json.Numeral.toDecimal ⟨negative, ds, some (plainDigits fraction), none⟩)),
      rest.drop (fraction.length + 1))

/-! ### Signs -/

def simple? : Char → Option Token
  | '*' => some .star
  | '[' => some .lbracket
  | ']' => some .rbracket
  | '(' => some .lparen
  | ')' => some .rparen
  | '$' => some .root
  | ',' => some .comma
  | ':' => some .colon
  | '?' => some .question
  | '+' => some .plus
  | _ => none

/-- A sign that may be followed by an equals sign. -/
def comparison (c : Char) (rest : List Char) : Option (Token × List Char) :=
  match c, rest with
  | '=', '=' :: more => some (.compare .eq, more)
  | '=', _ => some (.compare .eq, rest)
  | '!', '=' :: more => some (.compare .ne, more)
  | '!', _ => some (.not, rest)
  | '<', '=' :: more => some (.compare .le, more)
  | '<', _ => some (.compare .lt, rest)
  | '>', '=' :: more => some (.compare .ge, more)
  | '>', _ => some (.compare .gt, rest)
  | _, _ => none

/-- The direction of a sort key, behind a comma or space if there is one. -/
def direction? (cs : List Char) : Option (Token × List Char) :=
  let cs := match cs with
    | ',' :: rest => rest
    | _ => cs
  match cs.dropWhile Text.isBlank with
  | '/' :: rest => some (.direction false, rest)
  | '\\' :: rest => some (.direction true, rest)
  | _ => none

/-! ### Scanning -/

def startsWith (p : Char → Bool) (cs : List Char) : Bool := (cs.head?.map p).getD false

/-- The first token of a text that starts with no space and no direction. -/
def next (c : Char) (rest : List Char) : Option (Token × List Char) :=
  if isStart c then
    some (word (String.ofList (c :: rest.takeWhile isInner)), rest.dropWhile isInner)
  else if isDigit c then numeral false (c :: rest)
  else
    match c, rest with
    | '@', _ =>
      if startsWith isStart rest then
        some (word (String.ofList (c :: rest.takeWhile isInner)), rest.dropWhile isInner)
      else some (.this, rest)
    | '-', _ => if startsWith isDigit rest then numeral true rest else some (.minus, rest)
    | '.', '.' :: more => some (.descend, more)
    | '.', _ => some (.dot, rest)
    | '&', '&' :: more => some (.both, more)
    | '&', _ => some (.intersect, rest)
    | '|', '|' :: more => some (.either, more)
    | '|', _ => some (.union, rest)
    | '\'', _ => (upTo '\'' rest).map fun (s, more) => (.quoted (String.ofList s), more)
    | '"', _ => (upTo '"' rest).map fun (s, more) => (.quoted (String.ofList s), more)
    | '`', _ => (upTo '`' rest).map fun (s, more) => (.operator (String.ofList s), more)
    | _, _ =>
      match simple? c with
      | some t => some (t, rest)
      | none => comparison c rest

/-- All tokens of a text. Each step takes a character at least. -/
def scan : Nat → List Char → Option (List Token)
  | _, [] => some []
  | 0, _ => none
  | fuel + 1, c :: rest =>
    if c == ' ' || c == '\t' then scan fuel rest
    else
      match direction? (c :: rest) with
      | some (t, rest) => (scan fuel rest).map (t :: ·)
      | none =>
        if c == '\n' then scan fuel rest
        else do
          let (t, rest) ← next c rest
          let ts ← scan fuel rest
          return t :: ts

def tokens (s : String) : Option (List Token) := scan s.length s.toList

end Reshape.JsonPath
