import Reshape.Value

/-! JSON pointers (RFC 6901): reference tokens after slashes, `~1` for a slash, `~0` for a tilde. -/

namespace Reshape

structure Pointer where
  tokens : List String
  deriving DecidableEq, Repr

namespace Pointer

/-- Undoes the escapes of a token; none when a tilde is not followed by `0` or `1`. -/
def unescape : List Char → Option (List Char)
  | [] => some []
  | '~' :: '0' :: rest => (unescape rest).map ('~' :: ·)
  | '~' :: '1' :: rest => (unescape rest).map ('/' :: ·)
  | '~' :: _ => none
  | c :: rest => (unescape rest).map (c :: ·)

/-- A token as it is written. -/
def escape : List Char → List Char
  | [] => []
  | '~' :: rest => '~' :: '0' :: escape rest
  | '/' :: rest => '~' :: '1' :: escape rest
  | c :: rest => c :: escape rest

/-- The texts between slashes. -/
def pieces : List Char → List (List Char)
  | [] => [[]]
  | '/' :: rest => [] :: pieces rest
  | c :: rest =>
    match pieces rest with
    | [] => [[c]]
    | p :: ps => (c :: p) :: ps

/-- Why a text is no pointer. -/
inductive Fault
  | noSlash
  | badEscape
  deriving DecidableEq, Repr

def Fault.message : Fault → String
  | .noSlash => "location must start with /"
  | .badEscape => "invalid escape in a reference token"

def parse (s : String) : Except Fault Pointer :=
  match (pieces s.toList).mapM unescape with
  | none => .error .badEscape
  | some [] => .ok ⟨[]⟩
  | some (first :: rest) =>
    if first.isEmpty then .ok ⟨rest.map String.ofList⟩ else .error .noSlash

/-- An array index: `0`, or ASCII digits that do not start with a zero. -/
def index? (token : String) : Option Nat :=
  match token.toList with
  | ['0'] => some 0
  | c :: cs =>
    if c ≠ '0' && (c :: cs).all Char.isDigit then
      some ((c :: cs).foldl (fun n d => 10 * n + (d.toNat - 48)) 0)
    else none
  | [] => none

/-- One step: a member by its name, or an element by its index. -/
def step (token : String) : Value → Option Value
  | .object entries => Entries.find? (.text token) entries
  | .array items => (index? token).bind (items[·]?)
  | _ => none

/-- The value that the tokens lead to. -/
def walk : List String → Value → Option Value
  | [], v => some v
  | t :: ts, v => (step t v).bind (walk ts)

def resolve (p : Pointer) (v : Value) : Option Value := walk p.tokens v

end Pointer

end Reshape
