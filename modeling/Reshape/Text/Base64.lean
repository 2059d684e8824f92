import Reshape.Text.Encoding

/-! Bytes written in base 64: four characters for three bytes. Other characters between them count
for nothing, and the text ends where pads complete a group. -/

namespace Reshape.Text

/-- The value of a character of the alphabet. -/
def base64Digit? (c : Char) : Option Nat :=
  if 'A' ≤ c && c ≤ 'Z' then some (c.toNat - 65)
  else if 'a' ≤ c && c ≤ 'z' then some (c.toNat - 71)
  else if '0' ≤ c && c ≤ '9' then some (c.toNat + 4)
  else if c = '+' then some 62
  else if c = '/' then some 63
  else none

/-- The digits up to the end. `place` digits of a group have been read, with `pads` pads among or
behind them; a group that stays incomplete is refused. -/
def base64Digits : Nat → Nat → List Char → Option (List Nat)
  | place, _, [] => if place = 0 then some [] else none
  | place, pads, c :: rest =>
    if c = '=' then
      if place < 2 then base64Digits place pads rest
      else if 4 ≤ place + pads + 1 then some []
      else base64Digits place (pads + 1) rest
    else
      match base64Digit? c with
      | some d => (base64Digits ((place + 1) % 4) 0 rest).map (d :: ·)
      | none => base64Digits place pads rest

/-- Six bits a digit; bits that fill no byte are dropped. -/
def bytesOfSextets : List Nat → Bytes
  | a :: b :: c :: d :: rest =>
    .ofNat (4 * a + b / 16) :: .ofNat (16 * b + c / 4) :: .ofNat (64 * c + d) ::
      bytesOfSextets rest
  | [a, b, c] => [.ofNat (4 * a + b / 16), .ofNat (16 * b + c / 4)]
  | [a, b] => [.ofNat (4 * a + b / 16)]
  | _ => []

def bytesOfBase64? (cs : List Char) : Option Bytes :=
  if cs.all fun c => c.toNat < 0x80 then (base64Digits 0 0 cs).map bytesOfSextets else none

end Reshape.Text
