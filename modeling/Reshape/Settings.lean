import Reshape.Dialect
import Reshape.Fault
import Reshape.Text.Blank
import Reshape.Text.Encoding

/-! Settings of a binder. Texts lose surrounding white space and may not be empty; a truth value may
also be given as a number or a word, and a text as its bytes. Faults are reported field by field in
the order of the fields, then for unknown fields in the order given. -/

namespace Reshape

structure Settings where
  /-- The schema keyword that holds a directive. -/
  keyword : String := "bind"
  /-- The family of directives that name none. -/
  defaultFamily : String := "jmes"
  /-- Whether bound values are validated against the schema. -/
  validateOutput : Bool := true
  /-- The dialect of schemas that declare none. -/
  dialect : Dialect := .draft7
  deriving DecidableEq, Repr, Inhabited

namespace Settings

/-- A text of one character at least, without surrounding white space. -/
def trimmed (s : String) : Except FieldCause String :=
  let t := String.ofList (Text.trimBoth Text.isWhite s.toList)
  if t.isEmpty then .error .tooShort else .ok t

/-- A text without lone surrogates. -/
def wellFormed (s : String) : Except FieldCause String :=
  if Text.hasUnpaired s then .error .unreadableText else .ok s

def readText : Value → Except FieldCause String
  | .text s => do trimmed (← wellFormed s)
  | .special (.bytes bs) =>
    match Text.decodeStrict bs with
    | .ok cs => trimmed (String.ofList cs)
    | .error _ => .error .unreadableText
  | _ => .error .notText

def trueWords : List String := ["1", "true", "t", "yes", "y", "on"]

def falseWords : List String := ["0", "false", "f", "no", "n", "off"]

def readWord (s : String) : Except FieldCause Bool :=
  let w := String.ofList (s.toList.map Char.toLower)
  if trueWords.contains w then .ok true
  else if falseWords.contains w then .ok false
  else .error .unreadableBool

/-- A whole number that stands for a truth value. One that does not fit into a word of 64 bits is of
the wrong kind. -/
def readCount (n : Int) : Except FieldCause Bool :=
  if n = 1 then .ok true
  else if n = 0 then .ok false
  else if -0x8000000000000000 ≤ n && n < 0x8000000000000000 then .error .unreadableBool
  else .error .notBool

def readBool : Value → Except FieldCause Bool
  | .bool b => .ok b
  | .text s => do readWord (← wellFormed s)
  | .special (.bytes bs) =>
    match Text.decodeStrict bs with
    | .ok cs => readWord (String.ofList cs)
    | .error _ => .error .unreadableBool
  | .number (.int n) => readCount n
  | .number (.double d) =>
    match d.ratio? with
    | some (p, q) => if p % q = 0 then readCount (p / q) else .error .notBool
    | none => .error .notBool
  | _ => .error .notBool

def readDialect : Value → Except FieldCause Dialect
  | .text s => do
    match Dialect.ofName? (← wellFormed s) with
    | some d => return d
    | none => throw .unknownOption
  | _ => .error .unknownOption

/-- A field's value, or its default when it is not given, and its faults. -/
def readField {α : Type} (fields : List (String × Value)) (name : String) (default : α)
    (read : Value → Except FieldCause α) : α × List FieldFault :=
  match fields.lookup name with
  | none => (default, [])
  | some v =>
    match read v with
    | .ok a => (a, [])
    | .error c => (default, [⟨name, c⟩])

def fieldNames : List String := ["keyword", "default_family", "validate_output", "draft"]

def ofFields (fields : List (String × Value)) : Except (List FieldFault) Settings :=
  let base : Settings := {}
  let (keyword, f₁) := readField fields "keyword" base.keyword readText
  let (family, f₂) := readField fields "default_family" base.defaultFamily readText
  let (validate, f₃) := readField fields "validate_output" base.validateOutput readBool
  let (dialect, f₄) := readField fields "draft" base.dialect readDialect
  let unknown := (fields.filter fun (k, _) => !fieldNames.contains k).map
    fun (k, _) => (⟨k, .unknownField⟩ : FieldFault)
  match f₁ ++ f₂ ++ f₃ ++ f₄ ++ unknown with
  | [] => .ok ⟨keyword, family, validate, dialect⟩
  | faults => .error faults

/-- Settings cannot be changed. -/
def assign (_ : Settings) (field : String) (_ : Value) : List FieldFault := [⟨field, .frozen⟩]

end Settings

end Reshape
