import Reshape.Json.Fault
import Reshape.Json.Numeral
import Reshape.Value

/-! Reading JSON. Beyond the standard grammar `NaN`, `Infinity` and `-Infinity` are numbers; a
repeated key keeps its first place and takes its last value. -/

namespace Reshape.Json

/-- How a numeral with a fraction or an exponent is read. -/
inductive Reading
  | nearest
  | exact
  deriving DecidableEq, Repr

/-- Arrays and objects may be nested this deep. -/
def depthLimit : Nat := 990

/-- Where reading stopped: a cause and the text that was left, or a limit. -/
inductive Stop
  | at (cause : Cause) (rest : List Char)
  | digits (count : Nat)
  | depth
  | range

def isSpace (c : Char) : Bool := c == ' ' || c == '\t' || c == '\n' || c == '\r'

def skip (cs : List Char) : List Char := cs.dropWhile isSpace

/-! ### Strings -/

def simpleEscape? : Char → Option Char
  | '"' => some '"'
  | '\\' => some '\\'
  | '/' => some '/'
  | 'b' => some '\x08'
  | 'f' => some '\x0c'
  | 'n' => some '\n'
  | 'r' => some '\r'
  | 't' => some '\t'
  | _ => none

/-- Four hexadecimal digits. -/
def hex4? (a b c d : Char) : Option Nat := do
  let w ← Text.hexValue? a
  let x ← Text.hexValue? b
  let y ← Text.hexValue? c
  let z ← Text.hexValue? d
  return ((w * 16 + x) * 16 + y) * 16 + z

/-- The rest of a string whose opening quote stands at `start`. `high` is a high surrogate just
escaped, which joins with a low one escaped next and stands alone otherwise. -/
def readString (start : List Char) : Option Nat → List Char → Except Stop (List Char × List Char)
  | high, cs =>
    let flush (high : Option Nat) (r : List Char × List Char) : List Char × List Char :=
      match high with
      | some h => (Text.charOfCode h :: r.1, r.2)
      | none => r
    match cs with
    | [] => .error (.at .unterminated start)
    | '"' :: rest => .ok (flush high ([], rest))
    | ['\\'] => .error (.at .unterminated start)
    | '\\' :: 'u' :: a :: b :: c :: d :: e :: rest =>
      match hex4? a b c d with
      | none => .error (.at .unicodeEscape ('u' :: a :: b :: c :: d :: e :: rest))
      | some n =>
        match high with
        | some h =>
          if Text.isLow n then do
            let r ← readString start none (e :: rest)
            return (Text.charOfCode (Text.joinPair h n) :: r.1, r.2)
          else if Text.isHigh n then do
            let r ← readString start (some n) (e :: rest)
            return (Text.charOfCode h :: r.1, r.2)
          else do
            let r ← readString start none (e :: rest)
            return (Text.charOfCode h :: Text.charOfCode n :: r.1, r.2)
        | none =>
          if Text.isHigh n then readString start (some n) (e :: rest)
          else do
            let r ← readString start none (e :: rest)
            return (Text.charOfCode n :: r.1, r.2)
    | '\\' :: 'u' :: rest => .error (.at .unicodeEscape ('u' :: rest))
    | '\\' :: c :: rest =>
      match simpleEscape? c with
      | none => .error (.at .escape ('\\' :: c :: rest))
      | some x => do
        let r ← readString start none rest
        return flush high (x :: r.1, r.2)
    | c :: rest =>
      if c.toNat < 0x20 then .error (.at .control (c :: rest))
      else do
        let r ← readString start none rest
        return flush high (c :: r.1, r.2)
termination_by structural _ cs => cs

/-! ### Values -/

/-- A number, read in the given way. -/
def readNumber (r : Reading) (n : Numeral) : Except Stop Number :=
  if n.isWhole then
    if n.whole.length > digitLimit then .error (.digits n.whole.length) else .ok (.int n.toInt)
  else
    match r with
    | .nearest => .ok (.double (nearestDouble n.toDecimal))
    | .exact => if n.toDecimal.inRange then .ok (.decimal n.toDecimal) else .error .range

/-- Words and numbers. -/
def readScalar (r : Reading) (cs : List Char) : Except Stop (Value × List Char) :=
  match cs with
  | 'n' :: 'u' :: 'l' :: 'l' :: rest => .ok (.null, rest)
  | 't' :: 'r' :: 'u' :: 'e' :: rest => .ok (.bool true, rest)
  | 'f' :: 'a' :: 'l' :: 's' :: 'e' :: rest => .ok (.bool false, rest)
  | 'N' :: 'a' :: 'N' :: rest => .ok (.double .nan, rest)
  | 'I' :: 'n' :: 'f' :: 'i' :: 'n' :: 'i' :: 't' :: 'y' :: rest =>
    .ok (.double (.infinity false), rest)
  | '-' :: 'I' :: 'n' :: 'f' :: 'i' :: 'n' :: 'i' :: 't' :: 'y' :: rest =>
    .ok (.double (.infinity true), rest)
  | _ =>
    match readNumeral cs with
    | none => .error (.at .value cs)
    | some (n, rest) => do
      let x ← readNumber r n
      return (.number x, rest)

mutual

/-- A value at the start of a text. `fuel` bounds the steps and `depth` the nesting. -/
def readValue (r : Reading) : Nat → Nat → List Char → Except Stop (Value × List Char)
  | 0, _, _ => .error .depth
  | fuel + 1, depth, cs =>
    match cs with
    | '"' :: rest => do
      let (s, rest) ← readString cs none rest
      return (.text (String.ofList s), rest)
    | '[' :: rest =>
      match depth with
      | 0 => .error .depth
      | depth + 1 =>
        match skip rest with
        | ']' :: rest => .ok (.array [], rest)
        | rest => do
          let (items, rest) ← readItems r fuel depth rest
          return (.array items, rest)
    | '\x7b' :: rest =>
      match depth with
      | 0 => .error .depth
      | depth + 1 =>
        match skip rest with
        | '\x7d' :: rest => .ok (.object [], rest)
        | rest => do
          let (entries, rest) ← readEntries r fuel depth [] rest
          return (.object entries, rest)
    | _ => readScalar r cs

/-- Items up to the closing bracket. -/
def readItems (r : Reading) : Nat → Nat → List Char → Except Stop (List Value × List Char)
  | 0, _, _ => .error .depth
  | fuel + 1, depth, cs => do
    let (v, rest) ← readValue r fuel depth cs
    match skip rest with
    | ']' :: rest => return ([v], rest)
    | ',' :: rest =>
      let (items, rest) ← readItems r fuel depth (skip rest)
      return (v :: items, rest)
    | rest => .error (.at .comma rest)

/-- Entries up to the closing brace, written into `acc`. -/
def readEntries (r : Reading) :
    Nat → Nat → List (Key × Value) → List Char → Except Stop (List (Key × Value) × List Char)
  | 0, _, _, _ => .error .depth
  | fuel + 1, depth, acc, cs => do
    match cs with
    | '"' :: rest =>
      let (key, rest) ← readString cs none rest
      match skip rest with
      | ':' :: rest =>
        let (v, rest) ← readValue r fuel depth (skip rest)
        let acc := Entries.insert (.text (String.ofList key)) v acc
        match skip rest with
        | '\x7d' :: rest => return (acc, rest)
        | ',' :: rest => readEntries r fuel depth acc (skip rest)
        | rest => .error (.at .comma rest)
      | rest => .error (.at .colon rest)
    | _ => .error (.at .name cs)

end

/-- The fault of a stop in `text`. -/
def Stop.fault (text : List Char) : Stop → Fault
  | .at c rest => .malformed c (.behind (text.take (text.length - rest.length)))
  | .digits n => .tooManyDigits n
  | .depth => .tooDeep
  | .range => .outOfRange

/-- Reads a whole text; only space may surround the value. -/
def parseChars (r : Reading) (text : List Char) : Except Fault Value :=
  match readValue r (2 * text.length + 2) depthLimit (skip text) with
  | .error stop => .error (stop.fault text)
  | .ok (v, rest) =>
    match skip rest with
    | [] => .ok v
    | rest => .error ((Stop.at .extraData rest).fault text)

/-- Reads a text, which must not start with a byte order mark. -/
def parseText (r : Reading) (s : String) : Except Fault Value :=
  match s.toList with
  | '\ufeff' :: rest => .error ((Stop.at .mark ('\ufeff' :: rest)).fault ('\ufeff' :: rest))
  | cs => parseChars r cs

/-- Reads a document in any of the encodings of Unicode. -/
def parseBytes (r : Reading) (bytes : Text.Bytes) : Except Fault Value :=
  match Text.decodeDetected bytes with
  | .error f => .error (.undecodable f)
  | .ok cs => parseChars r cs

end Reshape.Json
