import Reshape.Pattern.Escape

/-! Sets of characters in brackets. A closing bracket is an ordinary character as the first member,
and a dash is one where no range can stand. -/

namespace Reshape.Pattern

/-- A member of a set, behind a backslash. -/
def setEscape : List Char → Option (Member × List Char)
  | [] => none
  | c :: rest =>
    match category? c with
    | some m => some (m, rest)
    | none =>
      if c = 'b' then some (.range '\x08' '\x08', rest)
      else if isOctal c then
        let ds := c :: (rest.take 2).takeWhile isOctal
        (octal ds ((c :: rest).drop ds.length)).map fun (x, rest) => (.range x x, rest)
      else (charEscape c rest).map fun (x, rest) => (.range x x, rest)

def setMember : List Char → Option (Member × List Char)
  | [] => none
  | '\\' :: rest => setEscape rest
  | c :: rest => some (.range c c, rest)

/-- A range between two single characters. -/
def rangeOf? : Member → Member → Option Member
  | .range a b, .range c d => if a = b && c = d && a ≤ c then some (.range a c) else none
  | _, _ => none

/-- Members up to the closing bracket; `first` says that none has been read. -/
def setMembers : Nat → Bool → List Char → Option (List Member × List Char)
  | 0, _, _ => none
  | steps + 1, first, cs =>
    match first, cs with
    | false, ']' :: rest => some ([], rest)
    | _, _ => do
      let (m, rest) ← setMember cs
      match rest with
      | '-' :: ']' :: rest => return ([m, .range '-' '-'], rest)
      | '-' :: rest =>
        let (n, rest) ← setMember rest
        let r ← rangeOf? m n
        let (ms, rest) ← setMembers steps false rest
        return (r :: ms, rest)
      | rest =>
        let (ms, rest) ← setMembers steps false rest
        return (m :: ms, rest)

def setOf (f : Flags) (cs : List Char) : Option (Expr × List Char) :=
  match cs with
  | '^' :: rest => (setMembers (rest.length + 1) true rest).map fun (ms, r) => (.set f true ms, r)
  | _ => (setMembers (cs.length + 1) true cs).map fun (ms, r) => (.set f false ms, r)

end Reshape.Pattern
