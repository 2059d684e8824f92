import Reshape.Schema.Keyword.Object

/-! Keywords that only the third draft has, or that it reads in a way of its own. -/

namespace Reshape.Schema.Check

/-! ### Types -/

/-- Tries types, which may be schemas, until one fits: every violation of the schemas if none
does. -/
def firstType (c : Check) : List Value → Except Crash (Option (List Violation))
  | [] => .ok (some [])
  | t :: rest => do
    if isSame t (.text "any") then return none
    let (fits, vs) ← (match t with
      | .object _ => do
        let vs ← (c.applyInside false c.scope t c.subject).all
        return (vs.isEmpty, vs)
      | _ => do return (← hasTypeOf c.policy.dialect c.subject t, []) :
        Except Crash (Bool × List Violation))
    if fits then return none
    else return (← c.firstType rest).map (vs ++ ·)

/-- A type in a message: the name that a schema gives itself, or the whole type. -/
def typeLabel (t : Value) : String := ((t.get? "name").getD t).display

def typeOrSchema (c : Check) : Verdict := do
  let types ← c.alternatives
  match ← c.firstType types with
  | none => return .none
  | some vs =>
    c.failBecause
      (c.subject.display ++ " is not of type " ++ ", ".intercalate (types.map typeLabel)) vs

/-- The instance has none of the types named. -/
def disallow (c : Check) : Verdict := do
  c.each (← c.alternatives) fun t => do
    if ← c.satisfies (.ofFields [("type", .array [t])]) c.subject then
      c.fail (t.display ++ " is disallowed for " ++ c.subject.display)
    else return .none

/-- The instance satisfies one schema, or all of several. -/
def extending (c : Check) : Verdict := do
  if isObject c.value then c.here c.value else c.each (← partsOf c.value) c.here

/-! ### Members -/

/-- A member that is missing although its schema requires it. The violation is placed at the
member. -/
def missing (c : Check) (k : Key) : Verdict :=
  .ok (.single (.mk (some "required") (k.display ++ " is a required property") [.key k] c.typed []))

def oldestProperties (c : Check) : Verdict :=
  c.onMembers fun es => do
    c.each (← entriesOf c.value) fun (k, s) =>
      match Entries.find? k es with
      | some v => c.part (.key k) s v
      | none => do
        let flag := Entries.find? (.text "required") (← entriesOf s)
        if (flag.map Value.isTruthy).getD false then c.missing k else return .none

def oldestDependencies (c : Check) : Verdict :=
  c.dependents fun es k d =>
    match d with
    | .object _ => c.here d
    | .text _ => c.needs es k [d]
    | names => do c.needs es k (← partsOf names)

end Reshape.Schema.Check
