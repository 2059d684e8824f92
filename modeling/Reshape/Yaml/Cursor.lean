import Reshape.Yaml.Fault

/-! A place in a YAML text. The end of the text is seen as a null character, which cannot stand in
one. -/

namespace Reshape.Yaml

/-- What is left of a text, and where that starts. -/
structure Cursor where
  rest : List Char
  index : Nat
  line : Nat
  column : Nat

def finish : Char := '\x00'

def isBreak (c : Char) : Bool :=
  c == '\n' || c == '\r' || c == '\x85' || c == '\u2028' || c == '\u2029'

def isBreakOrEnd (c : Char) : Bool := isBreak c || c == finish

/-- A break, the end or a space. -/
def isGap (c : Char) : Bool := isBreakOrEnd c || c == ' '

/-- A gap or a tab. -/
def isSpaceOrEnd (c : Char) : Bool := isGap c || c == '\t'

/-- The characters that a text may hold. -/
def isAllowed (c : Char) : Bool :=
  c == '\t' || c == '\n' || c == '\r' || c == '\x85' || ('\x20' ≤ c && c ≤ '\x7e') ||
    ('\xa0' ≤ c && c ≤ '\ufffd') || 0x10000 ≤ c.toNat

namespace Cursor

def ofChars (cs : List Char) : Cursor := ⟨cs, 0, 0, 0⟩

/-- The character `n` places on. -/
def peekAt (c : Cursor) (n : Nat) : Char := c.rest.getD n finish

def peek (c : Cursor) : Char := c.peekAt 0

/-- Goes over one character. A byte order mark has no width. -/
def next (c : Cursor) : Cursor :=
  match c.rest with
  | [] => c
  | x :: rest =>
    if isBreak x && !(x == '\r' && rest.head? == some '\n') then ⟨rest, c.index + 1, c.line + 1, 0⟩
    else ⟨rest, c.index + 1, c.line, if x == '\ufeff' then c.column else c.column + 1⟩

def skip (c : Cursor) : Nat → Cursor
  | 0 => c
  | n + 1 => c.next.skip n

/-- The characters as long as they satisfy `p`, and the place behind them. -/
def span (c : Cursor) (p : Char → Bool) : List Char × Cursor :=
  let cs := c.rest.takeWhile p
  (cs, c.skip cs.length)

def skipSpaces (c : Cursor) : Cursor := (c.span (· == ' ')).2

/-- A line break, which counts as a line feed unless it is one of the separators. -/
def lineBreak (c : Cursor) : List Char × Cursor :=
  match c.rest with
  | '\r' :: '\n' :: _ => (['\n'], c.skip 2)
  | x :: _ =>
    if x == '\u2028' || x == '\u2029' then ([x], c.next)
    else if isBreak x then (['\n'], c.next)
    else ([], c)
  | [] => ([], c)

/-- Whether a document marker stands here. -/
def atMarker (c : Cursor) (mark : Char) : Bool :=
  c.peek == mark && c.peekAt 1 == mark && c.peekAt 2 == mark && isSpaceOrEnd (c.peekAt 3)

def atAnyMarker (c : Cursor) : Bool := c.atMarker '-' || c.atMarker '.'

/-- Goes over a comment that starts here. -/
def skipComment (c : Cursor) : Cursor :=
  if c.peek == '#' then (c.span fun x => !isBreakOrEnd x).2 else c

/-- Goes over spaces and a comment to the end of a line. -/
def restOfLine (c : Cursor) : Except Fault Cursor :=
  let c := c.skipSpaces.skipComment
  if isBreakOrEnd c.peek then .ok c.lineBreak.2 else .error .malformed

end Cursor

end Reshape.Yaml
