import Reshape.JsonPath.Expr

/-! What may stand in brackets and holds no path: names, indices, a slice or a star. -/

namespace Reshape.JsonPath

def nameOf? : Token → Option String
  | .name s => some s
  | .quoted s => some s
  | _ => none

/-- Names with commas between them. -/
def moreNames : List Token → List String × List Token
  | .comma :: t :: rest =>
    match nameOf? t with
    | some s =>
      let (ss, rest) := moreNames rest
      (s :: ss, rest)
    | none => ([], .comma :: t :: rest)
  | ts => ([], ts)

def moreIndices : List Token → List Int × List Token
  | .comma :: .whole n :: rest =>
    let (ns, rest) := moreIndices rest
    (n :: ns, rest)
  | ts => ([], ts)

def optionalWhole : List Token → Option Int × List Token
  | .whole n :: rest => (some n, rest)
  | ts => (none, ts)

def close (e : Expr) : List Token → Option (Expr × List Token)
  | .rbracket :: rest => some (e, rest)
  | _ => none

/-- A slice, one colon at least. -/
def sliceOf (ts : List Token) : Option (Expr × List Token) :=
  match optionalWhole ts with
  | (a, .colon :: rest) =>
    match optionalWhole rest with
    | (b, .colon :: rest) =>
      let (s, rest) := optionalWhole rest
      close (.slice a b s) rest
    | (b, rest) => close (.slice a b none) rest
  | _ => none

/-- Names, indices, a slice or a star, up to the closing bracket. -/
def plainBracket (ts : List Token) : Option (Expr × List Token) :=
  match ts with
  | .star :: rest => close .wildcard rest
  | .whole _ :: .colon :: _ | .colon :: _ => sliceOf ts
  | .whole n :: rest =>
    let (ns, rest) := moreIndices rest
    close (.indices (n :: ns)) rest
  | t :: rest => do
    let s ← nameOf? t
    let (ss, rest) := moreNames rest
    close (.fields (s :: ss)) rest
  | [] => none

end Reshape.JsonPath
