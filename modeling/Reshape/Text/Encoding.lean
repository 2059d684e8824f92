import Reshape.Text.Quoted

/-! Unicode text in bytes: UTF-8, UTF-16 and UTF-32. The encoding of a document is told from a byte
order mark, else from where its first bytes are zero. A decoder reports the first place where the
bytes do not follow the encoding. Lone surrogates pass where a document is read. -/

namespace Reshape.Text

abbrev Bytes := List UInt8

/-- The UTF-8 bytes of a text. -/
def utf8 (s : String) : Bytes := s.toList.flatMap String.utf8EncodeChar

/-- The UTF-8 bytes of a text without lone surrogates, which have none. -/
def utf8? (s : String) : Option Bytes := if hasUnpaired s then none else some (utf8 s)

inductive ByteOrder
  | little
  | big
  deriving DecidableEq, Repr

inductive Encoding
  | utf8
  | utf16 (order : ByteOrder)
  | utf32 (order : ByteOrder)
  deriving DecidableEq, Repr

def ByteOrder.name : ByteOrder → String
  | .little => "le"
  | .big => "be"

def Encoding.name : Encoding → String
  | .utf8 => "utf-8"
  | .utf16 o => "utf-16-" ++ o.name
  | .utf32 o => "utf-32-" ++ o.name

/-! ### Faults -/

inductive DecodeCause
  | startByte
  | continuation
  | endOfData
  | truncated
  | codePoint
  deriving DecidableEq, Repr

/-- The bytes from `start` up to `stop` do not follow the encoding; `lead` is the first of them. -/
structure DecodeFault where
  encoding : Encoding
  cause : DecodeCause
  lead : UInt8
  start : Nat
  stop : Nat
  deriving DecidableEq, Repr

def DecodeCause.text : DecodeCause → String
  | .startByte => "invalid start byte"
  | .continuation => "invalid continuation byte"
  | .endOfData => "unexpected end of data"
  | .truncated => "truncated data"
  | .codePoint => "code point not in range(0x110000)"

def DecodeFault.message (f : DecodeFault) : String :=
  "'" ++ f.encoding.name ++ "' codec can't decode " ++
    (if f.stop = f.start + 1 then
      "byte 0x" ++ String.ofList (hex 2 f.lead.toNat) ++ " in position " ++ toString f.start
    else "bytes in position " ++ toString f.start ++ "-" ++ toString (f.stop - 1)) ++
    ": " ++ f.cause.text

/-! ### UTF-8 -/

/-- A character under way: where it starts, the bits read, the bytes owed, and the range of the
next byte. A `surrogate` is under way when only letting surrogates pass has admitted it. -/
structure Pending where
  start : Nat
  lead : UInt8
  code : Nat
  owed : Nat
  least : Nat
  greatest : Nat
  surrogate : Bool

/-- What a byte after a complete character begins. -/
def Pending.ofLead? (position : Nat) (b : UInt8) : Option Pending :=
  let n := b.toNat
  if 0xc2 ≤ n && n ≤ 0xdf then some ⟨position, b, n - 0xc0, 1, 0x80, 0xbf, false⟩
  else if 0xe0 ≤ n && n ≤ 0xef then
    some ⟨position, b, n - 0xe0, 2, if n = 0xe0 then 0xa0 else 0x80,
      if n = 0xed then 0x9f else 0xbf, false⟩
  else if 0xf0 ≤ n && n ≤ 0xf4 then
    some ⟨position, b, n - 0xf0, 3, if n = 0xf0 then 0x90 else 0x80,
      if n = 0xf4 then 0x8f else 0xbf, false⟩
  else none

/-- The fault of a character cut off at `stop`. A surrogate is at fault from its second byte on. -/
def Pending.fault (p : Pending) (cause : DecodeCause) (stop : Nat) : DecodeFault :=
  if p.surrogate then ⟨.utf8, .continuation, p.lead, p.start, p.start + 1⟩
  else ⟨.utf8, cause, p.lead, p.start, stop⟩

def Pending.next (p : Pending) (n : Nat) : Pending :=
  { p with code := p.code * 64 + (n - 0x80), owed := p.owed - 1, least := 0x80, greatest := 0xbf }

/-- Whether surrogates pass. -/
inductive Surrogates
  | refused
  | pass
  deriving DecidableEq

/-- Reads byte by byte; `pending` is the character under way. -/
def decodeUtf8 (mode : Surrogates) :
    Nat → Option Pending → Bytes → Except DecodeFault (List Char)
  | _, none, [] => .ok []
  | position, some p, [] => .error (p.fault .endOfData position)
  | position, none, b :: rest =>
    if b.toNat < 0x80 then do
      let cs ← decodeUtf8 mode (position + 1) none rest
      return Char.ofNat b.toNat :: cs
    else
      match Pending.ofLead? position b with
      | none => .error ⟨.utf8, .startByte, b, position, position + 1⟩
      | some p => decodeUtf8 mode (position + 1) (some p) rest
  | position, some p, b :: rest =>
    let n := b.toNat
    if p.least ≤ n && n ≤ p.greatest then
      if p.owed ≤ 1 then do
        let cs ← decodeUtf8 mode (position + 1) none rest
        return charOfCode (p.code * 64 + (n - 0x80)) :: cs
      else decodeUtf8 mode (position + 1) (some (p.next n)) rest
    else if mode = .pass && p.greatest = 0x9f && 0xa0 ≤ n && n ≤ 0xbf then
      decodeUtf8 mode (position + 1) (some { p.next n with surrogate := true }) rest
    else .error (p.fault .continuation position)

/-! ### UTF-16 and UTF-32 -/

def unit16 : ByteOrder → UInt8 → UInt8 → Nat
  | .little, a, b => a.toNat + 256 * b.toNat
  | .big, a, b => 256 * a.toNat + b.toNat

/-- Reads unit by unit; `high` is a high surrogate that waits for its low one. -/
def decodeUtf16 (o : ByteOrder) : Nat → Option Nat → Bytes → Except DecodeFault (List Char)
  | _, none, [] => .ok []
  | _, some h, [] => .ok [charOfCode h]
  | position, _, [b] => .error ⟨.utf16 o, .truncated, b, position, position + 1⟩
  | position, high, a :: b :: rest =>
    let n := unit16 o a b
    match high with
    | some h =>
      if isLow n then do
        let cs ← decodeUtf16 o (position + 2) none rest
        return charOfCode (joinPair h n) :: cs
      else if isHigh n then do
        let cs ← decodeUtf16 o (position + 2) (some n) rest
        return charOfCode h :: cs
      else do
        let cs ← decodeUtf16 o (position + 2) none rest
        return charOfCode h :: charOfCode n :: cs
    | none =>
      if isHigh n then decodeUtf16 o (position + 2) (some n) rest
      else do
        let cs ← decodeUtf16 o (position + 2) none rest
        return charOfCode n :: cs

def unit32 : ByteOrder → UInt8 → UInt8 → UInt8 → UInt8 → Nat
  | .little, a, b, c, d => unit16 .little a b + 65536 * unit16 .little c d
  | .big, a, b, c, d => 65536 * unit16 .big a b + unit16 .big c d

def decodeUtf32 (o : ByteOrder) : Nat → Bytes → Except DecodeFault (List Char)
  | _, [] => .ok []
  | position, a :: b :: c :: d :: rest =>
    let n := unit32 o a b c d
    if n ≥ 0x110000 then .error ⟨.utf32 o, .codePoint, a, position, position + 4⟩
    else do
      let cs ← decodeUtf32 o (position + 4) rest
      return charOfCode n :: cs
  | position, a :: rest =>
    .error ⟨.utf32 o, .truncated, a, position, position + 1 + rest.length⟩

/-! ### Detection -/

/-- The encoding of a JSON document, and the length of its byte order mark. -/
def detect : Bytes → Encoding × Nat
  | 0 :: 0 :: 0xfe :: 0xff :: _ => (.utf32 .big, 4)
  | 0xff :: 0xfe :: 0 :: 0 :: _ => (.utf32 .little, 4)
  | 0xfe :: 0xff :: _ => (.utf16 .big, 2)
  | 0xff :: 0xfe :: _ => (.utf16 .little, 2)
  | 0xef :: 0xbb :: 0xbf :: _ => (.utf8, 3)
  | a :: b :: c :: d :: _ =>
    if a = 0 then (if b = 0 then .utf32 .big else .utf16 .big, 0)
    else if b = 0 then (if c = 0 && d = 0 then .utf32 .little else .utf16 .little, 0)
    else (.utf8, 0)
  | [a, b] => (if a = 0 then .utf16 .big else if b = 0 then .utf16 .little else .utf8, 0)
  | _ => (.utf8, 0)

/-- A document's text. Positions in faults count from the first byte, except that those of UTF-8
count from behind its mark. -/
def decodeDetected (bytes : Bytes) : Except DecodeFault (List Char) :=
  match detect bytes with
  | (.utf8, mark) => decodeUtf8 .pass 0 none (bytes.drop mark)
  | (.utf16 o, mark) => decodeUtf16 o mark none (bytes.drop mark)
  | (.utf32 o, mark) => decodeUtf32 o mark (bytes.drop mark)

/-- Strict UTF-8. -/
def decodeStrict (bytes : Bytes) : Except DecodeFault (List Char) :=
  decodeUtf8 .refused 0 none bytes

/-- UTF-8 in which each part that does not follow the encoding becomes U+FFFD. Each round reads up
to one such part. -/
def decodeReplacing : Nat → Bytes → List Char
  | 0, _ => []
  | rounds + 1, bytes =>
    match decodeStrict bytes with
    | .ok cs => cs
    | .error f =>
      match decodeStrict (bytes.take f.start) with
      | .ok cs => cs ++ '\ufffd' :: decodeReplacing rounds (bytes.drop f.stop)
      | .error _ => []

/-! ### Hexadecimal notation -/

def hexValue? (c : Char) : Option Nat :=
  if c.isDigit then some (c.toNat - 48)
  else if 'a' ≤ c && c ≤ 'f' then some (c.toNat - 87)
  else if 'A' ≤ c && c ≤ 'F' then some (c.toNat - 55)
  else none

/-- The bytes that pairs of hexadecimal digits spell. -/
def bytesOfHex? : List Char → Option Bytes
  | [] => some []
  | a :: b :: rest => do
    let x ← hexValue? a
    let y ← hexValue? b
    let more ← bytesOfHex? rest
    return UInt8.ofNat (16 * x + y) :: more
  | _ => none

def hexOfBytes (bytes : Bytes) : String :=
  String.ofList (bytes.flatMap fun b => hex 2 b.toNat)

end Reshape.Text
