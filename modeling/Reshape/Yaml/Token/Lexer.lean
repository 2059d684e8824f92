import Reshape.Yaml.Token

/-! From a text to its tokens. Outside of brackets indentation opens and closes collections. A key
is known only by the colon behind it, so that its token, and the start of its mapping, go in front
of tokens that were read before. Where the text cannot be read, the tokens in front of that count all
the same, but for those that a colon might still have made a key. -/

namespace Reshape.Yaml

/-- What may turn out to be a key: the number of its first token, and where it starts. A `required`
one stands where nothing but a key can. -/
structure Candidate where
  number : Nat
  required : Bool
  index : Nat
  line : Nat
  column : Nat

/-- The state of the lexer. `flow` counts the brackets that are open; `outer` holds the indentations
around the innermost; `candidates` has at most one entry for each number of open brackets. The
latest token stands first in `tokens`. -/
structure Lexer where
  cursor : Cursor
  flow : Nat := 0
  indent : Int := -1
  outer : List Int := []
  keyAllowed : Bool := true
  candidates : List (Nat × Candidate) := []
  tokens : List Token := []
  count : Nat := 0

/-- The most characters that a key may span. -/
def keyWidth : Nat := 1024

namespace Lexer

abbrev Step := Except Fault Lexer

def push (s : Lexer) (t : Token) : Lexer :=
  { s with tokens := t :: s.tokens, count := s.count + 1 }

/-- Puts a token in front of the token of a number. -/
def insertAt (s : Lexer) (number : Nat) (t : Token) : Lexer :=
  { s with tokens := s.tokens.insertIdx (s.count - number) t, count := s.count + 1 }

/-! ### Candidates for keys -/

def Candidate.isStale (k : Candidate) (c : Cursor) : Bool :=
  k.line != c.line || c.index - k.index > keyWidth

/-- Drops the candidates that the cursor has left behind. -/
def dropStale (s : Lexer) : Step :=
  if s.candidates.any fun (_, k) => Candidate.isStale k s.cursor && k.required then
    .error .malformed
  else
    .ok { s with candidates := s.candidates.filter fun (_, k) => !Candidate.isStale k s.cursor }

def dropCandidate (s : Lexer) : Step :=
  match s.candidates.lookup s.flow with
  | some k =>
    if k.required then .error .malformed
    else .ok { s with candidates := s.candidates.filter (·.1 != s.flow) }
  | none => .ok s

/-- The next token may begin a key. -/
def markCandidate (s : Lexer) : Step :=
  if s.keyAllowed then do
    let c := s.cursor
    let required := s.flow = 0 && s.indent = c.column
    let s ← s.dropCandidate
    return { s with
      candidates := (s.flow, ⟨s.count, required, c.index, c.line, c.column⟩) :: s.candidates }
  else .ok s

/-! ### Indentation -/

/-- Closes the collections that are indented deeper than a column. -/
def unwind (column : Int) (s : Lexer) : Lexer :=
  if s.flow = 0 then close s.outer s else s
where
  close : List Int → Lexer → Lexer
    | [], s => s
    | i :: outer, s =>
      if s.indent > column then close outer { s.push .blockEnd with indent := i, outer := outer }
      else s

/-- Whether a collection starts at a column, and the state inside of it. -/
def deepen (s : Lexer) (column : Nat) : Bool × Lexer :=
  if s.indent < column then (true, { s with indent := column, outer := s.indent :: s.outer })
  else (false, s)

/-- A mark that may begin a collection of the given kind outside of brackets. -/
def openBlock (s : Lexer) (start : Token) : Step :=
  if s.flow = 0 then
    if s.keyAllowed then
      let (deeper, s) := s.deepen s.cursor.column
      .ok (if deeper then s.push start else s)
    else .error .malformed
  else .ok s

/-! ### Tokens -/

/-- A token of the given width, after which keys are allowed or not. -/
def mark (s : Lexer) (t : Token) (width : Nat) (keyAllowed : Bool) : Lexer :=
  { s.push t with cursor := s.cursor.skip width, keyAllowed := keyAllowed }

/-- A token that may begin a key, read by `read`. -/
def content {α : Type} (s : Lexer) (read : Cursor → Except Fault (Scanned α))
    (token : α → Token) : Step := do
  let s ← s.markCandidate
  let (a, c) ← read s.cursor
  return { s.push (token a) with cursor := c, keyAllowed := false }

def atDocument (s : Lexer) (t : Token) : Step := do
  let s ← (s.unwind (-1)).dropCandidate
  return s.mark t 3 false

def directive (s : Lexer) : Step := do
  let s ← (s.unwind (-1)).dropCandidate
  let (d, c) ← readDirective s.cursor
  return { s.push (.directive d) with cursor := c, keyAllowed := false }

def openFlow (s : Lexer) (t : Token) : Step := do
  let s ← s.markCandidate
  return { s.mark t 1 true with flow := s.flow + 1 }

def closeFlow (s : Lexer) (t : Token) : Step := do
  let s ← s.dropCandidate
  if s.flow = 0 then .error .malformed else return { s.mark t 1 false with flow := s.flow - 1 }

def flowEntry (s : Lexer) : Step := do
  let s ← s.dropCandidate
  return s.mark .flowEntry 1 true

def blockEntry (s : Lexer) : Step := do
  let s ← (← s.openBlock .blockSequenceStart).dropCandidate
  return s.mark .blockEntry 1 true

def key (s : Lexer) : Step := do
  let s ← (← s.openBlock .blockMappingStart).dropCandidate
  return s.mark .key 1 (s.flow = 0)

/-- A colon turns the candidate into a key. -/
def value (s : Lexer) : Step :=
  match s.candidates.lookup s.flow with
  | some k =>
    let s := { s with candidates := s.candidates.filter (·.1 != s.flow) }.insertAt k.number .key
    let s :=
      if s.flow = 0 then
        let (deeper, s) := s.deepen k.column
        if deeper then s.insertAt k.number .blockMappingStart else s
      else s
    .ok (s.mark .value 1 false)
  | none => do
    let s ← (← s.openBlock .blockMappingStart).dropCandidate
    return s.mark .value 1 (s.flow = 0)

def blockScalar (folded : Bool) (s : Lexer) : Step := do
  let s ← s.dropCandidate
  let (cs, c) ← blockText folded s.indent s.cursor.next
  return { s.push (.scalar (String.ofList cs) false) with cursor := c, keyAllowed := true }

def readQuoted (quote : Char) (c : Cursor) : Except Fault (Scanned (List Char)) :=
  quotedText quote (c.rest.length + 1) c.next

def quoted (quote : Char) (s : Lexer) : Step :=
  s.content (readQuoted quote) fun cs => .scalar (String.ofList cs) false

/-- Keys are allowed behind a plain scalar that ends at the start of a line. -/
def plain (s : Lexer) : Step := do
  let s ← s.markCandidate
  let (cs, atLine, c) :=
    plainText (s.flow != 0) (s.indent + 1) (s.cursor.rest.length + 1) [] false s.cursor
  return { s.push (.scalar (String.ofList cs) true) with cursor := c, keyAllowed := atLine }

/-! ### The lexer -/

/-- Whether a plain scalar can start here. -/
def startsPlain (s : Lexer) : Bool :=
  let x := s.cursor.peek
  let marks := "-?:,[]\x7b\x7d#&*!|>'\"%@".toList ++ [Char.ofNat 0x60]
  !(isSpaceOrEnd x || marks.contains x) ||
    (!isSpaceOrEnd (s.cursor.peekAt 1) &&
      (x == '-' || (s.flow == 0 && (x == '?' || x == ':'))))

/-- Goes over space, comments and empty lines. -/
def skipToToken : Nat → Lexer → Lexer
  | 0, s => s
  | fuel + 1, s =>
    let c := s.cursor.skipSpaces.skipComment
    if isBreak c.peek then
      skipToToken fuel
        { s with cursor := c.lineBreak.2, keyAllowed := s.keyAllowed || s.flow == 0 }
    else { s with cursor := c }

/-- Reads the token at the cursor, which is not at the end. -/
def token (s : Lexer) : Step :=
  let c := s.cursor
  let spaced := s.flow != 0 || isSpaceOrEnd (c.peekAt 1)
  match c.peek with
  | '[' => s.openFlow .flowSequenceStart
  | '\x7b' => s.openFlow .flowMappingStart
  | ']' => s.closeFlow .flowSequenceEnd
  | '\x7d' => s.closeFlow .flowMappingEnd
  | ',' => s.flowEntry
  | '*' => s.content readAnchor .alias
  | '&' => s.content readAnchor .anchor
  | '!' => s.content readTag .tag
  | '\'' => s.quoted '\''
  | '"' => s.quoted '"'
  | x =>
    if x == '%' && c.column == 0 then s.directive
    else if c.column == 0 && c.atMarker '-' then s.atDocument .documentStart
    else if c.column == 0 && c.atMarker '.' then s.atDocument .documentEnd
    else if x == '-' && isSpaceOrEnd (c.peekAt 1) then s.blockEntry
    else if x == '?' && spaced then s.key
    else if x == ':' && spaced then s.value
    else if x == '|' && s.flow == 0 then s.blockScalar false
    else if x == '>' && s.flow == 0 then s.blockScalar true
    else if s.startsPlain then s.plain
    else .error .malformed

def atEnd (s : Lexer) : Step := do
  let s ← (s.unwind (-1)).dropCandidate
  return s.push .streamEnd

/-- Reads up to the next token, and that token. -/
def advance (s : Lexer) : Step := do
  let s := s.skipToToken (s.cursor.rest.length + 1)
  let s := (← s.dropStale).unwind s.cursor.column
  if s.cursor.rest.isEmpty then s.atEnd else s.token

/-- The tokens that no key mark can come in front of any more. -/
def settled (s : Lexer) : List Token :=
  let waiting := s.candidates.filter fun (_, k) => !Candidate.isStale k s.cursor
  s.tokens.reverse.take (waiting.foldl (fun n (_, k) => min n k.number) s.count)

def run : Nat → Lexer → Tokens
  | 0, s => ⟨s.settled, .malformed⟩
  | fuel + 1, s =>
    match s.advance with
    | .error f => ⟨s.settled, f⟩
    | .ok t =>
      if t.tokens.head? = some .streamEnd then ⟨t.tokens.reverse, .malformed⟩ else run fuel t

end Lexer

/-- The tokens of a text. A byte order mark may stand in front of it. -/
def tokens (cs : List Char) : Tokens :=
  if cs.all isAllowed then
    let c := Cursor.ofChars cs
    Lexer.run (cs.length + 1) { cursor := if c.peek == '\ufeff' then c.next else c }
  else ⟨[], .malformed⟩

end Reshape.Yaml
