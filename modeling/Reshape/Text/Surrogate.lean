/-! Surrogates: the code points from U+D800 up to U+DFFF, which UTF-16 uses in pairs. An escape or a
lenient encoding can name one alone. A text holds a lone surrogate as a character of a private
block that is set aside for it, so that it keeps its identity, its place in the order of code
points and its written form. -/

namespace Reshape.Text

def isHigh (n : Nat) : Bool := 0xd800 ≤ n && n < 0xdc00

def isLow (n : Nat) : Bool := 0xdc00 ≤ n && n < 0xe000

/-- The code point of a surrogate pair. -/
def joinPair (high low : Nat) : Nat := 0x10000 + (high - 0xd800) * 0x400 + (low - 0xdc00)

/-- The first character of the block for lone surrogates. -/
def unpairedBlock : Nat := 0x10f000

/-- The character of a code point; a lone surrogate has one in its block. -/
def charOfCode (n : Nat) : Char :=
  if h : n.isValidChar then Char.ofNatAux n h
  else if isHigh n || isLow n then Char.ofNat (unpairedBlock + (n - 0xd800))
  else '\ufffd'

/-- The lone surrogate that a character stands for. -/
def unpaired? (c : Char) : Option Nat :=
  if unpairedBlock ≤ c.toNat && c.toNat < unpairedBlock + 0x800 then
    some (0xd800 + (c.toNat - unpairedBlock))
  else none

/-- The code point that a character stands for. -/
def codeOf (c : Char) : Nat := (unpaired? c).getD c.toNat

/-- Whether a text holds a lone surrogate. -/
def hasUnpaired (s : String) : Bool := s.toList.any fun c => (unpaired? c).isSome

/-- Order by code points. -/
def precedesChars : List Char → List Char → Bool
  | _, [] => false
  | [], _ :: _ => true
  | c :: cs, d :: ds => codeOf c < codeOf d || (c == d && precedesChars cs ds)

def precedes (s t : String) : Bool := precedesChars s.toList t.toList

end Reshape.Text
