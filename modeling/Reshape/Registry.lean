import Reshape.Cache
import Reshape.Directive
import Reshape.Strategy

/-! The families that directives may name. Families and representations are registered one by one
and never replaced; a family reads no representation or a registered one. A registry is a value, so
what is registered later does not change one that was built before. -/

namespace Reshape

/-- A way to make strategies from expressions. -/
structure Family where
  name : String
  representation : Option String
  make : String → Outcome Strategy

/-- The strategy must read the representation that its family declares. -/
def Family.create (f : Family) (expression : String) : Outcome Strategy := do
  let s ← f.make expression
  if s.representation = f.representation then return s
  else .error (.crash (.registry (.mismatch f.name f.representation s.representation)))

/-- A family name and its colon fit in the window of a directive. -/
def nameLimit : Nat := Directive.window - 1

structure Registry where
  families : List Family
  representations : List Representation

namespace Registry

def empty : Registry := ⟨[], []⟩

def find? (r : Registry) (family : String) : Option Family :=
  r.families.find? fun f => f.name == family

def contains (r : Registry) (family : String) : Bool := (r.find? family).isSome

def hasRepresentation (r : Registry) (name : String) : Bool :=
  r.representations.any fun x => x.name == name

def get (r : Registry) (family : String) : Outcome Family :=
  match r.find? family with
  | some f => .ok f
  | none => .error (.fault (.unsupportedFamily family none))

def create (r : Registry) (family expression : String) : Outcome Strategy := do
  (← r.get family).create expression

/-! ### Registration -/

def addRepresentation (r : Registry) (x : Representation) : Except RegistryFault Registry :=
  if r.hasRepresentation x.name then .error (.representationTaken x.name)
  else .ok { r with representations := r.representations ++ [x] }

/-- A representation that a family asks for and that is not there. -/
def missing? (r : Registry) (f : Family) : Option String :=
  f.representation.filter fun n => !r.hasRepresentation n

def addFamily (r : Registry) (f : Family) : Except RegistryFault Registry :=
  if f.name.isEmpty || f.name.toList.contains ':' then .error (.invalidName f.name)
  else if f.name.length > nameLimit then .error (.nameTooLong f.name nameLimit)
  else if r.contains f.name then .error (.familyTaken f.name)
  else
    match r.missing? f with
    | some n => .error (.unknownRepresentation f.name n)
    | none => .ok { r with families := r.families ++ [f] }

/-! ### Built-in families -/

def builtinFamilies : List Family :=
  [⟨"nil", none, fun _ => .ok .absent⟩,
    ⟨"map", none, fun _ => .ok .mapping⟩,
    ⟨"slice", none, Strategy.sequence⟩,
    ⟨"jmes", some "json", Strategy.jmesPath⟩,
    ⟨"jp", some "json", Strategy.jsonPath "jp" "json"⟩,
    ⟨"pointer", some "json", Strategy.pointer⟩,
    ⟨"exact", some "decimal", Strategy.jsonPath "exact" "decimal"⟩]

def default : Registry := ⟨builtinFamilies, [.json, .decimal]⟩

end Registry

/-- Splits a directive by the families of a registry. -/
def Directive.splitIn (r : Registry) (s default : String) : Directive :=
  Directive.split s r.contains default

end Reshape
