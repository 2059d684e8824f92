import Reshape.Fault
import Reshape.Json.Parser

/-! Documents, and the representations of one document, built when they are first asked for. A
representation is built at most once with success; a build that fails leaves its slot empty, and
the next request builds again. -/

namespace Reshape

/-- A document as it is handed over. -/
inductive Document
  | text (s : String)
  | bytes (bs : Text.Bytes)

/-- The bytes of a document, in UTF-8 if it is a text. -/
def Document.raw : Document → Outcome Text.Bytes
  | .bytes bs => .ok bs
  | .text s =>
    match Text.utf8? s with
    | some bs => .ok bs
    | none => .error (.crash .unencodable)

/-- Why a representation cannot be built: bad bytes, a value of the wrong kind, nesting beyond the
limit, or a failure that has nothing to do with the document. -/
inductive BuildFault
  | badValue (reason : String)
  | wrongKind (reason : String)
  | tooDeep (reason : String)
  | other (failure : Failure)
  deriving Repr

/-- What a request for the representation reports. -/
def BuildFault.report (name : String) : BuildFault → Failure
  | .badValue r | .wrongKind r | .tooDeep r => .fault (.representation name r)
  | .other f => f

/-- A named way to read a document. `build n` is the answer to the call after `n` earlier ones. -/
structure Representation where
  name : String
  build : Nat → Text.Bytes → Except BuildFault Value

namespace Representation

/-- The faults of a JSON text as faults of a build. -/
def jsonFault : Json.Fault → BuildFault
  | .tooDeep => .tooDeep (Json.Fault.message .tooDeep)
  | .outOfRange => .other (.crash .arithmetic)
  | f => .badValue f.message

def jsonBuild (r : Json.Reading) (bytes : Text.Bytes) : Except BuildFault Value :=
  match Json.parseBytes r bytes with
  | .ok v => .ok v
  | .error f => .error (jsonFault f)

/-- JSON with numbers as whole numbers and doubles. -/
def json : Representation := ⟨"json", fun _ => jsonBuild .nearest⟩

/-- JSON with fractions and exponents as exact decimals. -/
def decimal : Representation := ⟨"decimal", fun _ => jsonBuild .exact⟩

end Representation

/-- A representation, the number of times it was asked to build, and what it built. -/
structure Slot where
  representation : Representation
  calls : Nat
  content : Option Value

structure Cache where
  raw : Text.Bytes
  slots : List Slot

namespace Cache

def Slot.empty (r : Representation) : Slot := ⟨r, 0, none⟩

def ofDocument (raw : Text.Bytes) (rs : List Representation) : Cache :=
  ⟨raw, rs.map Slot.empty⟩

def isBuiltIn (name : String) (slots : List Slot) : Bool :=
  slots.any fun s => s.representation.name == name && s.content.isSome

def isBuilt (c : Cache) (name : String) : Bool := isBuiltIn name c.slots

/-- Fills a slot unless it is full. -/
def fill (raw : Text.Bytes) (s : Slot) : Outcome Value × Slot :=
  match s.content with
  | some v => (.ok v, s)
  | none =>
    match s.representation.build s.calls raw with
    | .ok v => (.ok v, { s with calls := s.calls + 1, content := some v })
    | .error f => (.error (f.report s.representation.name), { s with calls := s.calls + 1 })

/-- Fills the slot of a name. -/
def request (raw : Text.Bytes) (name : String) : List Slot → Outcome Value × List Slot
  | [] => (.error (.fault (.representation name "unknown representation")), [])
  | s :: rest =>
    if s.representation.name = name then
      let (r, s) := fill raw s
      (r, s :: rest)
    else
      let (r, rest) := request raw name rest
      (r, s :: rest)

/-- The value of a representation, built now if it is not built yet. -/
def get (c : Cache) (name : String) : Outcome Value × Cache :=
  let (r, slots) := request c.raw name c.slots
  (r, { c with slots })

def ensure (c : Cache) (name : String) : Outcome Unit × Cache :=
  let (r, c) := c.get name
  (r.map fun _ => (), c)

/-- How often each representation was asked to build. -/
def calls (c : Cache) : List (String × Nat) :=
  c.slots.map fun s => (s.representation.name, s.calls)

/-- The names of the representations that are built. -/
def built (c : Cache) : List String :=
  (c.slots.filter fun s => s.content.isSome).map (·.representation.name)

end Cache

end Reshape
