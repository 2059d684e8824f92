import Reshape.Json.Fault
import Reshape.Value.Display

/-! Everything that can go wrong. A `Fault` is one the library reports as its own, with a message; a
`Crash` is an error of an evaluator or a file that no rule of the library covers and that passes
through every layer unchanged. A `Failure` is either. -/

namespace Reshape

/-! ### Causes -/

/-- Why a schema cannot be compiled. -/
inductive CompileReason
  | directive (keyword : String)
  | malformed (fault : Json.Fault)
  | root (kind : Kind)
  | invalid (detail : String)
  | stated (message : String)
  deriving DecidableEq, Repr

def CompileReason.message : CompileReason → String
  | .directive k => "'" ++ k ++ "' must be a string"
  | .malformed f => "invalid JSON: " ++ f.message
  | .root k => "schema root must be an object, got " ++ k.name
  | .invalid d => "invalid schema: " ++ d
  | .stated m => m

/-- What is wrong with a field of the settings. -/
inductive FieldCause
  | notText
  | unreadableText
  | tooShort
  | notBool
  | unreadableBool
  | unknownOption
  | unknownField
  | frozen
  deriving DecidableEq, Repr

structure FieldFault where
  field : String
  cause : FieldCause
  deriving DecidableEq, Repr

/-- Why a file cannot be loaded. -/
inductive LoadReason
  | notFound
  | malformedYaml (detail : String)
  | unreadable (detail : String)
  | malformedJson (fault : Json.Fault)
  | empty
  | notMapping
  | invalid (fields : List FieldFault)
  | stated (message : String)
  deriving DecidableEq, Repr

/-! ### Faults -/

inductive Fault
  | general (details : List Value)
  | compile (reason : CompileReason) (path : Option String)
  | unsupportedFamily (family : String) (path : Option String)
  | invalidExpression (family expression reason : String) (path : Option String)
  | cast (expected : String) (actual : Kind)
  | capacity (length required : Int)
  | extraction (family expression reason : String)
  | representation (name reason : String)
  | located (path : String) (cause : Fault)
  | cancelled (details : List Value)
  | output (message fieldPath : String)
  | settingsFile (file : String) (reason : LoadReason)
  | schemaFile (file : String) (reason : LoadReason)
  deriving Repr

/-- Details as text: nothing, one detail alone, or several in parentheses. -/
def detailText : List Value → String
  | [] => ""
  | [.text s] => s
  | [v] => v.display
  | vs => Value.bracketed "(" (Value.displayItems vs) ")"

/-- A compile message. An empty path is no path. -/
def atPath (path : Option String) (message : String) : String :=
  match path with
  | none | some "" => "Schema compile error: " ++ message
  | some p => "Schema compile error at " ++ p ++ ": " ++ message

def unsupportedText (family : String) : String := "unsupported family '" ++ family ++ "'"

def invalidText (family expression reason : String) : String :=
  "invalid " ++ family ++ " expression " ++ Text.quoted expression ++ ": " ++ reason

def fieldsText (fields : List FieldFault) : String :=
  toString fields.length ++ " invalid settings: " ++ ", ".intercalate (fields.map (·.field))

def LoadReason.settingsText : LoadReason → String
  | .notFound => "File not found"
  | .malformedYaml d | .unreadable d => "Invalid YAML: " ++ d
  | .malformedJson f => "Invalid JSON: " ++ f.message
  | .empty => "Empty file"
  | .notMapping => "Expected a mapping"
  | .invalid fs => fieldsText fs
  | .stated m => m

def LoadReason.schemaText : LoadReason → String
  | .notFound => "File not found"
  | .malformedYaml d | .unreadable d => "Invalid document: " ++ d
  | .malformedJson f => "Invalid document: " ++ f.message
  | .empty => "Empty file"
  | .notMapping => "Expected a mapping at the top level"
  | .invalid fs => fieldsText fs
  | .stated m => m

namespace Fault

def message : Fault → String
  | .general ds => detailText ds
  | .compile r p => atPath p r.message
  | .unsupportedFamily f p => atPath p (unsupportedText f)
  | .invalidExpression f e r p => atPath p (invalidText f e r)
  | .cast e a => "cast error: can not cast " ++ a.name ++ " to " ++ e
  | .capacity l r =>
    "capacity error: sequence has " ++ toString l ++ " slots, " ++ toString r ++ " required"
  | .extraction f e r => f ++ " evaluation of " ++ Text.quoted e ++ " failed: " ++ r
  | .representation n r => "cannot build " ++ n ++ " representation: " ++ r
  | .located p c => "[" ++ p ++ "] " ++ c.message
  | .cancelled ds => detailText ds
  | .output m p => "Output validation error at " ++ p ++ ": " ++ m
  | .settingsFile f r => "Error loading " ++ f ++ ": " ++ r.settingsText
  | .schemaFile f r => "Error loading " ++ f ++ ": " ++ r.schemaText

/-- Whether the fault already says where in the output it arose. -/
def annotated : Fault → Bool
  | .located _ _ => true
  | _ => false

/-- Names the place in the output, unless an inner place is named already. -/
def locate (path : String) (f : Fault) : Fault := if f.annotated then f else .located path f

end Fault

/-! ### Crashes -/

/-- Why a registration, or the making of a strategy, is refused. -/
inductive RegistryFault
  | invalidName (name : String)
  | nameTooLong (name : String) (limit : Nat)
  | familyTaken (name : String)
  | unknownRepresentation (name representation : String)
  | representationTaken (name : String)
  | mismatch (name : String) (declared actual : Option String)
  deriving DecidableEq, Repr

def optionalName : Option String → String
  | none => "None"
  | some s => Text.quoted s

def RegistryFault.message : RegistryFault → String
  | .invalidName n => "Invalid family name '" ++ n ++ "'"
  | .nameTooLong n l => "Family name '" ++ n ++ "' exceeds " ++ toString l ++ " characters"
  | .familyTaken n => "Family '" ++ n ++ "' is already registered"
  | .unknownRepresentation n r =>
    "Family '" ++ n ++ "' requires unknown representation '" ++ r ++ "'"
  | .representationTaken n => "Representation '" ++ n ++ "' is already registered"
  | .mismatch n d a =>
    "Family '" ++ n ++ "' declares representation " ++ optionalName d ++
      " but its strategy reads " ++ optionalName a

/-- Why a reference in a schema leads nowhere. -/
inductive ReferenceFault
  | unresolvable
  | noResource
  | noPlace
  | noAnchor
  | invalidAnchor
  deriving DecidableEq, Repr

inductive Crash
  | wrongKind
  | badValue
  | missingKey
  | overflow
  | arithmetic
  | range
  | memory
  | noParent
  | missingAttribute
  | tooDeep
  | undecodable
  | unencodable
  | missingItem
  | division
  | reference (fault : ReferenceFault)
  | deadReference
  | unsupported
  | unknownType
  | undefinedType
  | badPattern
  | registry (fault : RegistryFault)
  deriving DecidableEq, Repr

inductive Failure
  | fault (f : Fault)
  | crash (c : Crash)
  deriving Repr

abbrev Outcome := Except Failure

end Reshape
