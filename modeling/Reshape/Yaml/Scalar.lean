import Reshape.Yaml.Cursor

/-! The text of scalars: quoted, plain and block scalars. Single line breaks are folded into spaces,
except in literal blocks. -/

namespace Reshape.Yaml

/-- A text that was read, and the place behind it. -/
abbrev Read := Except Fault (List Char × Cursor)

/-! ### Quoted scalars -/

def simpleEscape? : Char → Option Char
  | '0' => some '\x00'
  | 'a' => some '\x07'
  | 'b' => some '\x08'
  | 't' => some '\t'
  | '\t' => some '\t'
  | 'n' => some '\n'
  | 'v' => some '\x0b'
  | 'f' => some '\x0c'
  | 'r' => some '\r'
  | 'e' => some '\x1b'
  | ' ' => some ' '
  | '"' => some '"'
  | '\\' => some '\\'
  | '/' => some '/'
  | 'N' => some '\x85'
  | '_' => some '\xa0'
  | 'L' => some '\u2028'
  | 'P' => some '\u2029'
  | _ => none

/-- How many hexadecimal digits follow an escape. -/
def escapeWidth? : Char → Option Nat
  | 'x' => some 2
  | 'u' => some 4
  | 'U' => some 8
  | _ => none

/-- The character of a code; codes beyond 31 bits are not even numbers of characters. -/
def charOfHex (ds : List Char) : Except Fault Char :=
  if ds.all fun d => (Text.hexValue? d).isSome then
    let n := ds.foldl (fun n d => 16 * n + (Text.hexValue? d).getD 0) 0
    if n ≤ 0x10ffff then .ok (Text.charOfCode n)
    else if n < 0x80000000 then .error (.unreadable .codePoint)
    else .error (.crash .overflow)
  else .error .malformed

/-- Empty lines and the indentation behind them; a document marker may not stand there. -/
def foldedBreaks : Nat → Cursor → Read
  | 0, _ => .error .malformed
  | fuel + 1, c =>
    if c.atAnyMarker then .error .malformed
    else
      let c := (c.span fun x => x == ' ' || x == '\t').2
      if isBreak c.peek then do
        let (b, c) := c.lineBreak
        let (bs, c) ← foldedBreaks fuel c
        return (b ++ bs, c)
      else .ok ([], c)

/-- Space inside of a quoted scalar, folded. -/
def quotedSpace (c : Cursor) : Read :=
  let (blanks, c) := c.span fun x => x == ' ' || x == '\t'
  if c.peek == finish then .error .malformed
  else if isBreak c.peek then do
    let (b, c) := c.lineBreak
    let (bs, c) ← foldedBreaks (c.rest.length + 1) c
    return ((if b != ['\n'] then b else if bs.isEmpty then [' '] else []) ++ bs, c)
  else .ok (blanks, c)

/-- An escape behind its backslash. -/
def escaped (c : Cursor) : Read :=
  match simpleEscape? c.peek with
  | some x => .ok ([x], c.next)
  | none =>
    match escapeWidth? c.peek with
    | some w => do
      let ds := c.next.rest.take w
      if ds.length < w then .error .malformed
      else return ([← charOfHex ds], c.next.skip w)
    | none =>
      if isBreak c.peek then foldedBreaks (c.rest.length + 1) c.lineBreak.2
      else .error .malformed

def isQuotedPlain (x : Char) : Bool :=
  !(x == '\'' || x == '"' || x == '\\' || isSpaceOrEnd x)

/-- The text of a quoted scalar behind its opening quote, and the place behind the closing one. -/
def quotedText (quote : Char) : Nat → Cursor → Read
  | 0, _ => .error .malformed
  | fuel + 1, c =>
    let goOn (read : Read) : Read := do
      let (a, c) ← read
      let (b, c) ← quotedText quote fuel c
      return (a ++ b, c)
    let x := c.peek
    if isQuotedPlain x then goOn (.ok (c.span isQuotedPlain))
    else if x == quote then
      if quote == '\'' && c.peekAt 1 == '\'' then goOn (.ok (['\''], c.skip 2))
      else .ok ([], c.next)
    else if x == '\'' || x == '"' then goOn (.ok ([x], c.next))
    else if x == '\\' then
      if quote == '"' then goOn (escaped c.next) else goOn (.ok (['\\'], c.next))
    else goOn (quotedSpace c)

/-! ### Plain scalars -/

def isFlowMark (x : Char) : Bool := x == ',' || x == '[' || x == ']' || x == '\x7b' || x == '\x7d'

/-- Whether a plain scalar ends before a character, given the one behind it. -/
def endsPlain (inFlow : Bool) (x y : Char) : Bool :=
  isSpaceOrEnd x || (x == ':' && (isSpaceOrEnd y || (inFlow && isFlowMark y))) ||
    (inFlow && (isFlowMark x || x == '?'))

/-- Characters of a plain scalar without space. -/
def plainWord (inFlow : Bool) : List Char → List Char
  | [] => []
  | x :: rest =>
    if endsPlain inFlow x (rest.headD finish) then [] else x :: plainWord inFlow rest

/-- Empty lines behind the first line break of a plain scalar; none at a document marker. -/
def plainBreaks : Nat → Cursor → Option (List Char) × Cursor
  | 0, c => (none, c)
  | fuel + 1, c =>
    let c := c.skipSpaces
    if isBreak c.peek then
      let (b, c) := c.lineBreak
      if c.atAnyMarker then (none, c)
      else
        let (bs, c) := plainBreaks fuel c
        (bs.map (b ++ ·), c)
    else (some [], c)

/-- Space inside of a plain scalar, folded, and whether it went over a line break. It is empty
where the scalar cannot go on. -/
def plainSpace (c : Cursor) : List Char × Bool × Cursor :=
  let (blanks, c) := c.span (· == ' ')
  if isBreak c.peek then
    let (b, c) := c.lineBreak
    if c.atAnyMarker then ([], true, c)
    else
      match plainBreaks (c.rest.length + 1) c with
      | (none, c) => ([], true, c)
      | (some bs, c) =>
        ((if b != ['\n'] then b else if bs.isEmpty then [' '] else []) ++ bs, true, c)
  else (blanks, false, c)

/-- The text of a plain scalar, whether it ends at the start of a line, and the place behind it.
`space` is what was read before. -/
def plainText (inFlow : Bool) (indent : Int) :
    Nat → List Char → Bool → Cursor → List Char × Bool × Cursor
  | 0, _, atLine, c => ([], atLine, c)
  | fuel + 1, space, atLine, c =>
    let word := if c.peek == '#' then [] else plainWord inFlow c.rest
    if word.isEmpty then ([], atLine, c)
    else
      let (more, crossed, c) := plainSpace (c.skip word.length)
      if more.isEmpty || c.peek == '#' || (!inFlow && (c.column : Int) < indent) then
        (space ++ word, crossed, c)
      else
        let (text, atLine, c) := plainText inFlow indent fuel more crossed c
        (space ++ word ++ text, atLine, c)

/-! ### Block scalars -/

/-- What happens to the line breaks at the end of a block. -/
inductive Chomping
  | clip
  | strip
  | keep
  deriving DecidableEq

def chomping? : Char → Option Chomping
  | '+' => some .keep
  | '-' => some .strip
  | _ => none

def increment? (x : Char) : Option Nat := if x.isDigit then some (x.toNat - 48) else none

/-- The header of a block: chomping and indentation, in either order. -/
def blockHeader (c : Cursor) : Except Fault (Chomping × Option Nat × Cursor) := do
  let (chomping, increment, c) : Chomping × Option Nat × Cursor :=
    match chomping? c.peek, increment? c.peek with
    | some k, _ =>
      match increment? c.next.peek with
      | some n => (k, some n, c.skip 2)
      | none => (k, none, c.next)
    | none, some n =>
      match chomping? c.next.peek with
      | some k => (k, some n, c.skip 2)
      | none => (.clip, some n, c.next)
    | none, none => (.clip, none, c)
  if increment = some 0 || !isGap c.peek then .error .malformed
  else return (chomping, increment, ← c.restOfLine)

/-- Empty lines at the start of a block, and the widest indentation among them. -/
def leadingBreaks : Nat → Nat → Cursor → List Char × Nat × Cursor
  | 0, widest, c => ([], widest, c)
  | fuel + 1, widest, c =>
    if c.peek == ' ' then leadingBreaks fuel (max widest c.next.column) c.next
    else if isBreak c.peek then
      let (b, c) := c.lineBreak
      let (bs, widest, c) := leadingBreaks fuel widest c
      (b ++ bs, widest, c)
    else ([], widest, c)

/-- Goes over at most as many spaces as the indentation asks for. -/
def skipIndent (indent : Nat) : Nat → Cursor → Cursor
  | 0, c => c
  | fuel + 1, c => if c.column < indent && c.peek == ' ' then skipIndent indent fuel c.next else c

/-- Empty lines inside of a block. -/
def blockBreaks (indent : Nat) : Nat → Cursor → List Char × Cursor
  | 0, c => ([], c)
  | fuel + 1, c =>
    let c := skipIndent indent indent c
    if isBreak c.peek then
      let (b, c) := c.lineBreak
      let (bs, c) := blockBreaks indent fuel c
      (b ++ bs, c)
    else ([], c)

def isBlank (x : Char) : Bool := x == ' ' || x == '\t'

/-- The lines of a block from a line on; `breaks` are the empty lines before it. Gives the text, the
last line break and the empty lines behind it. -/
def blockLines (folded : Bool) (indent : Nat) :
    Nat → List Char → Cursor → List Char × List Char × List Char × Cursor
  | 0, breaks, c => ([], [], breaks, c)
  | fuel + 1, breaks, c =>
    if c.column != indent || c.peek == finish then ([], [], breaks, c)
    else
      let solid := !isBlank c.peek
      let (line, c) := c.span fun x => !isBreakOrEnd x
      let (ending, c) := c.lineBreak
      let (more, c) := blockBreaks indent (c.rest.length + 1) c
      if c.column == indent && c.peek != finish then
        let joint :=
          if folded && ending == ['\n'] && solid && !isBlank c.peek then
            (if more.isEmpty then [' '] else [])
          else ending
        let (text, last, tail, c) := blockLines folded indent fuel more c
        (breaks ++ line ++ joint ++ text, last, tail, c)
      else (breaks ++ line, ending, more, c)

/-- The text of a block scalar behind its mark, in a collection of the given indentation. -/
def blockText (folded : Bool) (indent : Int) (c : Cursor) : Read := do
  let (chomping, increment, c) ← blockHeader c
  let least := (max (indent + 1) 1).toNat
  let (breaks, width, c) : List Char × Nat × Cursor :=
    match increment with
    | none =>
      let (bs, widest, c) := leadingBreaks (c.rest.length + 1) 0 c
      (bs, max least widest, c)
    | some n =>
      let width := least + n - 1
      let (bs, c) := blockBreaks width (c.rest.length + 1) c
      (bs, width, c)
  let (text, last, tail, c) := blockLines folded width (c.rest.length + 1) breaks c
  return (text ++ (if chomping = .strip then [] else last) ++
    (if chomping = .keep then tail else []), c)

end Reshape.Yaml
