import Reshape.Text.Numeral
import Reshape.Yaml.Scalar

/-! Tokens of YAML, and how anchors, aliases, tags and directives are read. -/

namespace Reshape.Yaml

/-- The name of a tag: a suffix behind a handle, or the whole name. -/
structure TagName where
  handle : Option String
  suffix : String
  deriving DecidableEq, Repr

inductive Command
  | version (major : Nat)
  | tag (handle value : String)
  | other
  deriving DecidableEq, Repr

inductive Token
  | directive (c : Command)
  | documentStart
  | documentEnd
  | streamEnd
  | blockSequenceStart
  | blockMappingStart
  | blockEnd
  | flowSequenceStart
  | flowSequenceEnd
  | flowMappingStart
  | flowMappingEnd
  | flowEntry
  | blockEntry
  | key
  | value
  | alias (name : String)
  | anchor (name : String)
  | tag (name : TagName)
  | scalar (text : String) (plain : Bool)
  deriving DecidableEq, Repr

/-- The tokens of a text as far as it can be read, and what is wrong behind the last of them. -/
structure Tokens where
  ready : List Token
  fault : Fault

/-- A part of a text as it was read, and the place behind it. -/
abbrev Scanned (α : Type) := α × Cursor

/-- Fails unless a character satisfies `p`. -/
def require (p : Char → Bool) (x : Char) : Except Fault Unit :=
  if p x then .ok () else .error .malformed

def isNameChar (x : Char) : Bool := x.isAlphanum || x == '-' || x == '_'

/-- A name of one character at least. -/
def readName (c : Cursor) : Except Fault (Scanned String) :=
  match c.span isNameChar with
  | ([], _) => .error .malformed
  | (cs, c) => .ok (String.ofList cs, c)

/-! ### Anchors -/

/-- What may follow the name of an anchor. -/
def endsName (x : Char) : Bool :=
  isSpaceOrEnd x ||
    ['?', ':', ',', ']', '\x7d', '%', '@', Char.ofNat 0x60].contains x

/-- The name behind the mark of an anchor or an alias. -/
def readAnchor (c : Cursor) : Except Fault (Scanned String) := do
  let (name, c) ← readName c.next
  require endsName c.peek
  return (name, c)

/-! ### Tags -/

/-- A byte after a percent sign. -/
def readByte (c : Cursor) : Except Fault (Scanned UInt8) :=
  match Text.hexValue? (c.peekAt 1), Text.hexValue? (c.peekAt 2) with
  | some x, some y => .ok (UInt8.ofNat (16 * x + y), c.skip 3)
  | _, _ => .error .malformed

/-- Bytes after percent signs, one after the other. -/
def readBytes : Nat → Cursor → Except Fault (Scanned (List UInt8))
  | 0, _ => .error .malformed
  | fuel + 1, c =>
    if c.peek == '%' then do
      let (b, c) ← readByte c
      let (bs, c) ← readBytes fuel c
      return (b :: bs, c)
    else .ok ([], c)

def isTagChar (x : Char) : Bool :=
  isNameChar x || ";/?:@&=+$,.!~*'()[]".toList.contains x

/-- The characters of a tag, bytes after percent signs standing for the characters they spell. -/
def readTagChars : Nat → Cursor → Except Fault (Scanned (List Char))
  | 0, _ => .error .malformed
  | fuel + 1, c =>
    let (cs, c) := c.span isTagChar
    if c.peek == '%' then do
      let (bs, c) ← readBytes fuel c
      let decoded ← (Text.decodeStrict bs).mapError fun _ => .malformed
      let (more, c) ← readTagChars fuel c
      return (cs ++ decoded ++ more, c)
    else .ok (cs, c)

def readTagText (c : Cursor) : Except Fault (Scanned String) := do
  let (cs, c') ← readTagChars (c.rest.length + 1) c
  if c'.index = c.index then .error .malformed else return (String.ofList cs, c')

/-- A handle: one exclamation mark, or two around a name. -/
def readHandle (c : Cursor) : Except Fault (Scanned String) := do
  require (· == '!') c.peek
  if c.peekAt 1 == ' ' then return ("!", c.next)
  let (name, d) := c.next.span isNameChar
  require (· == '!') d.peek
  return ("!" ++ String.ofList name ++ "!", d.next)

/-- Whether a second exclamation mark stands before the next gap. -/
def hasHandle (c : Cursor) : Bool :=
  (c.next.rest.takeWhile fun x => !isGap x).contains '!'

def readTag (c : Cursor) : Except Fault (Scanned TagName) := do
  let (name, c) ← (do
    if c.peekAt 1 == '<' then
      let (s, c) ← readTagText (c.skip 2)
      require (· == '>') c.peek
      return (⟨none, s⟩, c.next)
    else if isSpaceOrEnd (c.peekAt 1) then return (⟨none, "!"⟩, c.next)
    else if hasHandle c then
      let (h, c) ← readHandle c
      let (s, c) ← readTagText c
      return (⟨some h, s⟩, c)
    else
      let (s, c) ← readTagText c.next
      return (⟨some "!", s⟩, c) : Except Fault (Scanned TagName))
  require isGap c.peek
  return (name, c)

/-! ### Directives -/

/-- A whole number of at most `Json.digitLimit` digits. -/
def readVersionPart (c : Cursor) : Except Fault (Scanned Nat) :=
  match c.span Char.isDigit with
  | ([], _) => .error .malformed
  | (ds, c) =>
    if ds.length > Json.digitLimit then .error (.unreadable (.tooManyDigits ds.length))
    else .ok (Json.natOfDigits ds, c)

def readVersion (c : Cursor) : Except Fault (Scanned Command) := do
  let (major, c) ← readVersionPart c.skipSpaces
  require (· == '.') c.peek
  let (_, c) ← readVersionPart c.next
  require isGap c.peek
  return (.version major, c)

def readTagCommand (c : Cursor) : Except Fault (Scanned Command) := do
  let (handle, c) ← readHandle c.skipSpaces
  require (· == ' ') c.peek
  let (value, c) ← readTagText c.skipSpaces
  require isGap c.peek
  return (.tag handle value, c)

/-- A directive, its line included. -/
def readDirective (c : Cursor) : Except Fault (Scanned Command) := do
  let (name, c) ← readName c.next
  require isGap c.peek
  let (command, c) ←
    match name with
    | "YAML" => readVersion c
    | "TAG" => readTagCommand c
    | _ => .ok (.other, (c.span fun x => !isBreakOrEnd x).2)
  return (command, ← c.restOfLine)

end Reshape.Yaml
