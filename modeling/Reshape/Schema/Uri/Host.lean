import Reshape.Text.Encoding

/-! Hosts of URIs: addresses in brackets, and characters that a host may not hold because they fold
into marks of the URI itself. -/

namespace Reshape.Schema.Host

/-- The texts between marks. -/
def splitAt (mark : Char) : List Char → List (List Char)
  | [] => [[]]
  | c :: rest =>
    if c = mark then [] :: splitAt mark rest
    else
      match splitAt mark rest with
      | [] => [[c]]
      | s :: ss => (c :: s) :: ss

/-! ### Addresses -/

/-- A number from 0 to 255 without leading zeros. -/
def isOctet (ds : List Char) : Bool :=
  !ds.isEmpty && ds.all Char.isDigit && ds.length ≤ 3 && (ds == ['0'] || ds.head? != some '0') &&
    ds.foldl (fun n d => 10 * n + (d.toNat - 48)) 0 ≤ 255

/-- Four octets. -/
def isShortAddress (cs : List Char) : Bool :=
  let parts := splitAt '.' cs
  parts.length == 4 && parts.all isOctet

def isHexGroup (cs : List Char) : Bool :=
  !cs.isEmpty && cs.length ≤ 4 && cs.all fun c => (Text.hexValue? c).isSome

/-- The groups between colons, where four octets at the end stand for two groups. -/
def hexGroups? (cs : List Char) : Option (List (List Char)) :=
  let parts := splitAt ':' cs
  match parts.getLast? with
  | some last =>
    if last.contains '.' then
      if isShortAddress last then some (parts.dropLast ++ [['0'], ['0']]) else none
    else some parts
  | none => none

/-- Eight groups, or fewer with one gap of two colons. -/
def areGroups (parts : List (List Char)) : Bool :=
  let inner := (parts.drop 1).dropLast
  match inner.findIdx? List.isEmpty with
  | none => parts.length == 8 && parts.all isHexGroup
  | some i =>
    let high := parts.take (i + 1)
    let low := parts.drop (i + 2)
    let high := if high.head? == some [] then high.drop 1 else high
    let trailing := low.getLast? == some []
    let low := if trailing then low.dropLast else low
    high.all isHexGroup && low.all isHexGroup && high.length + low.length < 8 &&
      (parts.head? != some [] || high.isEmpty) && (!trailing || low.isEmpty)

/-- An address of eight groups, perhaps with a zone behind it. -/
def isLongAddress (cs : List Char) : Bool :=
  let parts := splitAt '%' cs
  let body := parts.headD []
  let zone := match parts with
    | [_] => true
    | [_, z] => !z.isEmpty
    | _ => false
  zone && !cs.contains '/' && (splitAt ':' body).length ≥ 3 &&
    match hexGroups? body with
    | some groups => groups.length ≤ 9 && areGroups groups
    | none => false

/-- An address of a later version: `v`, its number, a point and something. -/
def isFutureAddress (cs : List Char) : Bool :=
  match cs.takeWhile fun c => (Text.hexValue? c).isSome, cs.dropWhile fun c =>
    (Text.hexValue? c).isSome with
  | _ :: _, '.' :: rest => !rest.isEmpty && !rest.contains '\n'
  | _, _ => false

/-- What may stand in brackets. -/
def isBracketed (cs : List Char) : Bool :=
  match cs with
  | 'v' :: rest => isFutureAddress rest
  | _ => isLongAddress cs

/-! ### Folding -/

/-- The characters beyond ASCII whose compatibility form holds one of `/?#@:`. -/
def foldingMarks : List Nat :=
  [0x2047, 0x2048, 0x2049, 0x2100, 0x2101, 0x2105, 0x2106, 0x2a74, 0xfe13, 0xfe16, 0xfe55, 0xfe56,
    0xfe5f, 0xfe6b, 0xff03, 0xff0f, 0xff1a, 0xff1f, 0xff20]

def folds (cs : List Char) : Bool := cs.any fun c => foldingMarks.contains c.toNat

/-- Whether the part of a URI between `//` and its path can be one. -/
def isAuthority (cs : List Char) : Bool :=
  let opened := cs.contains '['
  let host := ((cs.dropWhile (· != '[')).drop 1).takeWhile (· != ']')
  opened == cs.contains ']' && (!opened || isBracketed host) && !folds cs

end Reshape.Schema.Host
