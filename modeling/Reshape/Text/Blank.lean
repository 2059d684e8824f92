import Reshape.Text.Range

/-! White space. -/

namespace Reshape.Text

/-- The characters with the white space property. -/
def whiteSpace : List (Nat × Nat) :=
  [(0x9, 0xd), (0x20, 0x20), (0x85, 0x85), (0xa0, 0xa0), (0x1680, 0x1680), (0x2000, 0x200a),
    (0x2028, 0x2029), (0x202f, 0x202f), (0x205f, 0x205f), (0x3000, 0x3000)]

def isWhite (c : Char) : Bool := inRanges whiteSpace c.toNat

/-- White space, or one of the four information separators. -/
def isBlank (c : Char) : Bool := isWhite c || (0x1c ≤ c.toNat && c.toNat ≤ 0x1f)

/-- A text without what satisfies `p` at either end. -/
def trimBoth (p : Char → Bool) (cs : List Char) : List Char :=
  ((cs.dropWhile p).reverse.dropWhile p).reverse

end Reshape.Text
