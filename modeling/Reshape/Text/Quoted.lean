import Reshape.Text.Printable
import Reshape.Text.Surrogate

/-! Quoted text in messages: single quotes, or double quotes when the text holds a single quote and
no double one. A backslash, the quote in use, and every unprintable character are escaped. -/

namespace Reshape.Text

def hexDigit (n : Nat) : Char := Nat.digitChar n

/-- The last `width` hexadecimal digits of `n`. -/
def hex : Nat → Nat → List Char
  | 0, _ => []
  | width + 1, n => hex width (n / 16) ++ [hexDigit (n % 16)]

def escapeCode (n : Nat) : List Char :=
  if n < 0x100 then '\\' :: 'x' :: hex 2 n
  else if n < 0x10000 then '\\' :: 'u' :: hex 4 n
  else '\\' :: 'U' :: hex 8 n

def escapeChar (quote c : Char) : List Char :=
  if c = quote || c = '\\' then ['\\', c]
  else if c = '\n' then ['\\', 'n']
  else if c = '\r' then ['\\', 'r']
  else if c = '\t' then ['\\', 't']
  else if isPrintable c then [c]
  else escapeCode (codeOf c)

def quoteFor (cs : List Char) : Char := if '\'' ∈ cs ∧ '"' ∉ cs then '"' else '\''

def quoted (s : String) : String :=
  let q := quoteFor s.toList
  String.ofList (q :: (s.toList.flatMap (escapeChar q) ++ [q]))

/-- Bytes quoted like text, with a mark in front; a byte that is no printable character of ASCII is
escaped. -/
def quotedBytes (bs : List UInt8) : String :=
  let cs := bs.map fun b => Char.ofNat b.toNat
  let q := quoteFor cs
  let escaped := cs.flatMap fun c => if c.toNat < 0x80 then escapeChar q c else escapeCode c.toNat
  String.ofList ('b' :: q :: (escaped ++ [q]))

end Reshape.Text
