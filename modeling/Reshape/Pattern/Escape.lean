import Reshape.Pattern.Expr
import Reshape.Text.Encoding

/-! Escapes: what a backslash and the characters behind it stand for. -/

namespace Reshape.Pattern

def isOctal (c : Char) : Bool := '0' ≤ c && c ≤ '7'

def natOf (base : Nat) (cs : List Char) : Nat :=
  cs.foldl (fun n c => base * n + (Text.hexValue? c).getD 0) 0

def charOf? (n : Nat) : Option Char := if n ≤ 0x10ffff then some (Text.charOfCode n) else none

/-- Exactly `count` hexadecimal digits. -/
def hexEscape (count : Nat) (cs : List Char) : Option (Char × List Char) :=
  let ds := cs.take count
  if ds.length = count && ds.all fun c => (Text.hexValue? c).isSome then
    (charOf? (natOf 16 ds)).map fun c => (c, cs.drop count)
  else none

def controlEscape? : Char → Option Char
  | 'a' => some '\x07'
  | 'f' => some '\x0c'
  | 'n' => some '\n'
  | 'r' => some '\r'
  | 't' => some '\t'
  | 'v' => some '\x0b'
  | '\\' => some '\\'
  | _ => none

def category? : Char → Option Member
  | 'd' => some (.category .digit false)
  | 'D' => some (.category .digit true)
  | 's' => some (.category .space false)
  | 'S' => some (.category .space true)
  | 'w' => some (.category .word false)
  | 'W' => some (.category .word true)
  | _ => none

def anchorEscape? : Char → Option Anchor
  | 'A' => some .textStart
  | 'Z' => some .textEnd
  | 'b' => some (.boundary false)
  | 'B' => some (.boundary true)
  | _ => none

/-- Octal digits, up to `255`. -/
def octal (ds : List Char) (rest : List Char) : Option (Char × List Char) :=
  if natOf 8 ds ≤ 0o377 then (charOf? (natOf 8 ds)).map fun c => (c, rest) else none

/-- An escape that stands for one character, behind its backslash. -/
def charEscape (c : Char) (rest : List Char) : Option (Char × List Char) :=
  match controlEscape? c with
  | some x => some (x, rest)
  | none =>
    match c with
    | 'x' => hexEscape 2 rest
    | 'u' => hexEscape 4 rest
    | 'U' => hexEscape 8 rest
    | _ => if c.isAlphanum then none else some (c, rest)

end Reshape.Pattern
