import Reshape.Text.Base64
import Reshape.Text.Numeral
import Reshape.Yaml.Fault
import Reshape.Yaml.Stamp

/-! Tags: what the text of a scalar, or a collection, stands for. A plain scalar without a tag gets
the tag of its form. -/

namespace Reshape.Yaml

inductive Tag
  | null
  | bool
  | int
  | double
  | moment
  | text
  | bytes
  | sequence
  | mapping
  | set
  | pairs
  /-- A key whose value is merged into the mapping around it. -/
  | merge
  /-- A key for the value that a mapping stands for where a scalar is asked for. -/
  | default
  | other
  deriving DecidableEq, Repr

/-- What the names of the format's own tags start with. -/
def tagBase : String := "tag:yaml.org,2002:"

def Tag.names : List (String × Tag) :=
  [("null", .null), ("bool", .bool), ("int", .int), ("float", .double), ("timestamp", .moment),
    ("str", .text), ("binary", .bytes), ("seq", .sequence), ("map", .mapping), ("set", .set),
    ("omap", .pairs), ("pairs", .pairs), ("merge", .merge), ("value", .default)]

def Tag.ofName (s : String) : Tag :=
  match names.find? fun (n, _) => tagBase ++ n == s with
  | some (_, t) => t
  | none => .other

/-- The tags whose values are made of a text. -/
def Tag.isScalar (t : Tag) : Bool :=
  [.null, .bool, .int, .double, .moment, .text, .bytes].contains t

/-- The tags whose values hold other values. -/
def Tag.isCollection (t : Tag) : Bool := [.sequence, .mapping, .set, .pairs].contains t

/-! ### Forms of plain scalars -/

namespace Form

def isLow (c : Char) : Bool := '0' ≤ c && c ≤ '5'

def digitOr (p : Char → Bool) (c : Char) : Bool := p c || c == '_'

/-- One character at least, all in a class or underscores. -/
def isRun (p : Char → Bool) (cs : List Char) : Bool := !cs.isEmpty && cs.all (digitOr p)

/-- Digits and underscores behind a first digit. -/
def isCount : List Char → Bool
  | c :: rest => c.isDigit && rest.all (digitOr Char.isDigit)
  | [] => false

/-- A number below sixty. -/
def isSixtieth : List Char → Bool
  | [d] => d.isDigit
  | [t, d] => isLow t && d.isDigit
  | _ => false

def isInt (cs : List Char) : Bool :=
  match (Text.takeSign cs).2 with
  | ['0'] => true
  | '0' :: 'b' :: ds => isRun (fun c => c == '0' || c == '1') ds
  | '0' :: 'x' :: ds => isRun (fun c => (Text.hexValue? c).isSome) ds
  | '0' :: ds => isRun (fun c => '0' ≤ c && c ≤ '7') ds
  | ds =>
    match ds.splitOn ':' with
    | first :: others => isCount first && others.all isSixtieth
    | [] => false

/-- Nothing, or an exponent with its sign. -/
def isExponent : List Char → Bool
  | [] => true
  | e :: s :: ds =>
    (e == 'e' || e == 'E') && (s == '+' || s == '-') && !ds.isEmpty && ds.all Char.isDigit
  | _ => false

/-- Digits around a point, and perhaps an exponent. -/
def isPointed (cs : List Char) : Bool :=
  let (_, body) := Text.takeSign cs
  let whole := body.takeWhile (digitOr Char.isDigit)
  match body.drop whole.length with
  | '.' :: rest =>
    (isCount whole ||
      (cs.head? == some '.' && isCount (rest.takeWhile (digitOr Char.isDigit)))) &&
      isExponent (rest.dropWhile (digitOr Char.isDigit))
  | _ => false

/-- Sixtieths after a count, the last of them with a point behind it. -/
def isPointedTime (cs : List Char) : Bool :=
  match ((Text.takeSign cs).2).splitOn ':' with
  | first :: second :: others =>
    match (second :: others).reverse with
    | last :: middle =>
      let fraction := last.dropWhile (· != '.')
      isCount first && middle.all isSixtieth && isSixtieth (last.takeWhile (· != '.')) &&
        !fraction.isEmpty && (fraction.drop 1).all (digitOr Char.isDigit)
    | [] => false
  | _ => false

def isDouble (cs : List Char) : Bool :=
  isPointed cs || isPointedTime cs ||
    [".inf", ".Inf", ".INF"].contains (String.ofList (Text.takeSign cs).2) ||
    [".nan", ".NaN", ".NAN"].contains (String.ofList cs)

def truthWords : List (String × Bool) :=
  [("yes", true), ("no", false), ("true", true), ("false", false), ("on", true), ("off", false)]

/-- A word in small letters, in capitals, or with a capital in front. -/
def spellings (w : String) : List String := [w, w.capitalize, w.toUpper]

def isTruth (s : String) : Bool := truthWords.any fun (w, _) => (spellings w).contains s

def isNull (s : String) : Bool := s == "" || s == "~" || (spellings "null").contains s

/-- A text without the line feed at its end. -/
def withoutFeed (cs : List Char) : List Char := if cs.getLast? = some '\n' then cs.dropLast else cs

end Form

/-- The tag of a plain scalar. -/
def Tag.ofPlain (s : String) : Tag :=
  let cs := s.toList
  if Form.isNull s then .null
  else if Form.isTruth s then .bool
  else if Form.isInt cs then .int
  else if Form.isDouble cs then .double
  else if Stamp.isPlain cs then .moment
  else if s == "<<" then .merge
  else if s == "=" then .default
  else .text

/-- The tag of any scalar that asks for the tag of its form. A line feed at its end counts for nothing,
but there must be something before it. -/
def Tag.ofForm (s : String) : Tag :=
  if s == "\n" then .text else ofPlain (String.ofList (Form.withoutFeed s.toList))

/-! ### Reading scalars -/

namespace Tag

/-- The letter behind a zero that names a base. -/
def baseLetter (base : Nat) : Char := if base = 2 then 'b' else if base = 8 then 'o' else 'x'

/-- A number in another base than ten. White space around it counts for nothing, and so does a mark
of that base in front of it. -/
def readBase (base : Nat) (cs : List Char) : Except Fault Int :=
  let (negative, body) := Text.takeSign (Text.plainDigits (String.ofList cs))
  let ds :=
    match body with
    | '0' :: x :: rest => if x.toLower = baseLetter base then rest else body
    | _ => body
  let digits := ds.map fun d => (Text.hexValue? d).getD base
  if ds.isEmpty || digits.any (base ≤ ·) then
    .error (.unreadable (.integer base (String.ofList cs)))
  else
    let n : Nat := digits.foldl (fun n d => base * n + d) 0
    .ok (if negative then -n else n)

def readTen (ds : List Char) : Except Fault Int :=
  match Text.readInteger? (String.ofList ds) with
  | some n => .ok n
  | none =>
    .error (.unreadable
      (if ds.all Char.isDigit && ds.length > Json.digitLimit then .tooManyDigits ds.length
      else .integer 10 (String.ofList ds)))

/-- Digits without a sign. Parts between colons are sixtieths of one another. -/
def readUnsigned : List Char → Except Fault Int
  | [] => .error (.crash .missingItem)
  | ['0'] => .ok 0
  | '0' :: 'b' :: ds => readBase 2 ds
  | '0' :: 'x' :: ds => readBase 16 ds
  | '0' :: ds => readBase 8 ('0' :: ds)
  | ds =>
    if ds.contains ':' then do
      let parts ← (ds.splitOn ':').mapM readTen
      return parts.foldl (fun n d => 60 * n + d) 0
    else readTen ds

def withoutUnderscores (s : String) : List Char := s.toList.filter (· != '_')

def readInt (s : String) : Except Fault Value := do
  let (negative, ds) := Text.takeSign (withoutUnderscores s)
  let n ← readUnsigned ds
  return .int (if negative then -n else n)

def readUnsignedDouble (cs : List Char) : Except Fault Double :=
  let s := String.ofList cs
  match Text.readDouble? s with
  | some d => .ok d
  | none => .error (.unreadable (.double s))

/-- The sum of parts, the last of which counts `weight`, the one before it sixty times that, and so
on. A weight must be a double. -/
def sumOfParts (sum : Double) (weight : Nat) : List Double → Except Fault Double
  | [] => .ok sum
  | d :: rest =>
    match Double.ofInt? weight with
    | some w => sumOfParts (sum.add (d.mul w)) (60 * weight) rest
    | none => .error (.crash .overflow)

def readDouble (s : String) : Except Fault Value := do
  let cs := (withoutUnderscores s).map Char.toLower
  if cs.isEmpty then .error (.crash .missingItem)
  else
    let (negative, body) := Text.takeSign cs
    let d ←
      if body == ".inf".toList then .ok (.infinity false)
      else if body == ".nan".toList then .ok .nan
      else if body.contains ':' then do
        let parts ← (body.splitOn ':').mapM readUnsignedDouble
        sumOfParts (.zero false) 1 parts.reverse
      else readUnsignedDouble body
    return .double (if negative then d.neg else d)

def readTruth (s : String) : Except Fault Value :=
  match Form.truthWords.lookup s.toLower with
  | some b => .ok (.bool b)
  | none => .error (.crash .missingKey)

def ofStamp (s : Stamp) : Except CalendarFault Special :=
  match s.clock with
  | none => Special.date <$> Date.make s.year s.month s.day
  | some c =>
    Special.moment <$>
      Moment.make s.year s.month s.day c.hour c.minute c.second (Stamp.micros c.fraction) c.zone

/-- A date or a point in time; a line feed at the end counts for nothing. -/
def readMoment (s : String) : Except Fault Value :=
  match (Stamp.ofChars? s.toList).or (Stamp.ofChars? (Form.withoutFeed s.toList)) with
  | none => .error (.crash .missingAttribute)
  | some x =>
    match ofStamp x with
    | .ok v => .ok (.special v)
    | .error f => .error (.unreadable (.calendar f))

/-- The value of a scalar. -/
def read (s : String) : Tag → Except Fault Value
  | .null => .ok .null
  | .bool => readTruth s
  | .int => readInt s
  | .double => readDouble s
  | .moment => readMoment s
  | .text => .ok (.text s)
  | .bytes =>
    match Text.bytesOfBase64? s.toList with
    | some bs => .ok (.special (.bytes bs))
    | none => .error .malformed
  | _ => .error .malformed

end Tag

end Reshape.Yaml
