import Reshape.Binder
import Reshape.Json.Parser
import Reshape.Settings
import Reshape.Value.Parts
import Reshape.Yaml

/-! Settings and schemas in files. Settings are YAML; a schema is YAML or JSON, as the suffix of its
file's name says. -/

namespace Reshape

/-- A file: its name, and its bytes if it exists. -/
structure File where
  name : String
  bytes : Option Text.Bytes

namespace File

/-- Every line end as a line feed. -/
def unifyLineEnds : List Char → List Char
  | '\r' :: '\n' :: rest => '\n' :: unifyLineEnds rest
  | '\r' :: rest => '\n' :: unifyLineEnds rest
  | c :: rest => c :: unifyLineEnds rest
  | [] => []

/-- The text of bytes in UTF-8. All of it is decoded before any of it is read. -/
def text (bytes : Text.Bytes) : Outcome (List Char) :=
  match Text.decodeStrict bytes with
  | .ok cs => .ok (unifyLineEnds cs)
  | .error _ => .error (.crash .undecodable)

/-- The name from its last point on, unless that is its first or last character. -/
def suffix (name : String) : String :=
  let cs := name.toList
  let tail := cs.reverse.takeWhile (· != '.')
  if tail.isEmpty || tail.length + 1 ≥ cs.length then ""
  else String.ofList ('.' :: tail.reverse)

def isYaml (name : String) : Bool := [".yaml", ".yml"].contains (suffix name).toLower

end File

/-! ### Settings -/

namespace Settings

/-- Fields of a mapping; every key must be a text. -/
def fields : List (Key × Value) → Option (List (String × Value))
  | [] => some []
  | (.text k, v) :: rest => (fields rest).map ((k, v) :: ·)
  | _ => none

/-- Reads settings from the text of a file; the reason comes without the name of the file. -/
def parse (cs : List Char) : Except (Crash ⊕ LoadReason) Settings :=
  match Yaml.parse cs with
  | .error .malformed => .error (.inr (.malformedYaml "the text does not follow the format"))
  | .error (.unreadable _) => .error (.inl .badValue)
  | .error (.crash c) => .error (.inl c)
  | .ok .null => .error (.inr .empty)
  | .ok (.object es) =>
    match fields es with
    | none => .error (.inl .wrongKind)
    | some fs => (ofFields fs).mapError fun faults => .inr (.invalid faults)
  | .ok _ => .error (.inr .notMapping)

def load (f : File) : Outcome Settings :=
  match f.bytes with
  | none => .error (.fault (.settingsFile f.name .notFound))
  | some bytes => do
    match parse (← File.text bytes) with
    | .ok s => return s
    | .error (.inl c) => .error (.crash c)
    | .error (.inr r) => .error (.fault (.settingsFile f.name r))

end Settings

/-! ### Schemas -/

namespace Schema

def parseYaml (cs : List Char) : Except (Crash ⊕ LoadReason) Value :=
  (Yaml.parse cs).mapError fun
    | .malformed => .inr (.malformedYaml "the text does not follow the format")
    | .unreadable f => .inr (.unreadable f.message)
    | .crash c => .inl c

def parseJson (cs : List Char) : Except (Crash ⊕ LoadReason) Value :=
  (Json.parseText .nearest (String.ofList cs)).mapError fun
    | .tooDeep => .inl .tooDeep
    | f => .inr (.malformedJson f)

/-- The entries of a schema in a file. -/
def load (f : File) : Outcome (List (Key × Value)) :=
  match f.bytes with
  | none => .error (.fault (.schemaFile f.name .notFound))
  | some bytes => do
    let cs ← File.text bytes
    match if File.isYaml f.name then parseYaml cs else parseJson cs with
    | .ok (.object es) => return es
    | .ok _ => .error (.fault (.schemaFile f.name .notMapping))
    | .error (.inl c) => .error (.crash c)
    | .error (.inr r) => .error (.fault (.schemaFile f.name r))

end Schema

/-- The binder of a schema in a file. Going through a schema that stands inside of itself never ends. -/
def Binder.ofFile (f : File) (s : Settings) (r : Registry) : Outcome Binder := do
  let es ← Schema.load f
  if (Value.object es).isEndless then .error (.crash .tooDeep) else compile (.mapping es) s r

end Reshape
