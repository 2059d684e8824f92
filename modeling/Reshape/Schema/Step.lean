import Reshape.Text.Surrogate
import Reshape.Value.Display

/-! Steps into a value, and the paths that they make. -/

namespace Reshape.Schema

/-- A step into an object or an array. -/
inductive Step
  | key (k : Key)
  | index (i : Nat)
  deriving DecidableEq, Repr

/-! ### Order -/

def compareTexts (s t : String) : Ordering :=
  if s = t then .eq else if Text.precedes s t then .lt else .gt

def Step.compare : Step → Step → Ordering
  | .key (.text a), .key (.text b) => compareTexts a b
  | .index i, .index j => Ord.compare i j
  | .index _, .key _ => .lt
  | .key _, .index _ => .gt
  | .key (.text _), .key _ => .lt
  | .key _, .key (.text _) => .gt
  | .key _, .key _ => .eq

def comparePaths : List Step → List Step → Ordering
  | [], [] => .eq
  | [], _ :: _ => .lt
  | _ :: _, [] => .gt
  | a :: as, b :: bs => (a.compare b).then (comparePaths as bs)

/-! ### Text -/

/-- Names that a path shows behind a point; one line feed may follow them. -/
def isPlainName (cs : List Char) : Bool :=
  let body := if cs.getLast? = some '\n' then cs.dropLast else cs
  match body with
  | c :: rest => c.isAlpha && rest.all fun x => x.isAlphanum || x == '_'
  | [] => false

def escapeName (cs : List Char) : List Char :=
  cs.flatMap fun c => if c = '\\' || c = '\'' then ['\\', c] else [c]

def Step.text : Step → String
  | .index i => "[" ++ toString i ++ "]"
  | .key (.text s) =>
    if isPlainName s.toList then "." ++ s
    else "['" ++ String.ofList (escapeName s.toList) ++ "']"
  | .key k => "[" ++ k.display ++ "]"

def pathText (steps : List Step) : String := "$" ++ String.join (steps.map Step.text)

end Reshape.Schema
