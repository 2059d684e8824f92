/-! Directives: `family ":" expression`, or an expression alone. Only the first eight characters are
searched for the delimiter, so a colon further on belongs to the expression. -/

namespace Reshape

structure Directive where
  family : String
  expression : String
  deriving DecidableEq, Repr

namespace Directive

/-- The delimiter is searched for among this many characters. -/
def window : Nat := 8

/-- The text before and behind the first colon in the window. -/
def cut (cs : List Char) : Option (List Char × List Char) :=
  let head := (cs.take window).takeWhile (· != ':')
  if head.length < (cs.take window).length then some (head, cs.drop (head.length + 1)) else none

/-- Splits off a family that `registered` holds; else the whole text is an expression of the default
family. -/
def split (s : String) (registered : String → Bool) (default : String) : Directive :=
  match cut s.toList with
  | some (head, rest) =>
    if !head.isEmpty && registered (String.ofList head) then
      ⟨String.ofList head, String.ofList rest⟩
    else ⟨default, s⟩
  | none => ⟨default, s⟩

end Directive

end Reshape
