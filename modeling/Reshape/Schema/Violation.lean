import Reshape.Fault
import Reshape.Schema.Step

/-! Violations of a schema, and the choice of the one to report. The deepest instance counts least:
a violation near the root is preferred, among siblings the one with the greatest path, then one that
does not come from alternatives, then one whose schema asks for another type. From a failed
alternative the choice goes on to the best of what failed in it. -/

namespace Reshape.Schema

/-- A violation: the keyword that is violated, the message, the path of the offending instance,
whether that instance has the type its schema asks for, which may be impossible to say, and the
violations behind it. -/
inductive Violation
  | mk (keyword : Option String) (message : String) (path : List Step) (typed : Except Crash Bool)
    (context : List Violation)

/-- The violation as seen from an instance further out. -/
def Violation.under (step : Step) : Violation → Violation
  | .mk k m p t c => .mk k m (step :: p) t c

/-! ### Order -/

/-- What decides between violations. -/
structure Relevance where
  path : List Step
  alternatives : Bool
  typed : Bool
  deriving DecidableEq

/-- The violation with the greater relevance is reported. -/
def Relevance.compare (a b : Relevance) : Ordering :=
  (Ord.compare b.path.length a.path.length).then <|
    (comparePaths a.path b.path).then <|
      (Ord.compare (!a.alternatives) (!b.alternatives)).then (Ord.compare (!a.typed) (!b.typed))

def isAlternatives (keyword : Option String) : Bool :=
  keyword == some "anyOf" || keyword == some "oneOf"

def Violation.relevance : Violation → Except Crash Relevance
  | .mk k _ p t _ => do return ⟨p, isAlternatives k, ← t⟩

/-! ### Choice -/

/-- What is reported: a message and the path of the instance. -/
structure Report where
  message : String
  path : List Step
  deriving DecidableEq

/-- A violation to choose from, and what to report when it is chosen. -/
structure Candidate where
  relevance : Relevance
  report : Except Crash Report

def Candidate.isBelow (a b : Candidate) : Bool := a.relevance.compare b.relevance == .lt

/-- The first of the least candidates and the least of the others. -/
def leastTwo : List Candidate → Option (Candidate × Option Candidate)
  | [] => none
  | c :: rest =>
    match leastTwo rest with
    | none => some (c, none)
    | some (d, e) =>
      if d.isBelow c then
        match e with
        | none => some (d, some c)
        | some e => some (d, some (if e.isBelow c then e else c))
      else some (c, some d)

/-- The choice among the violations behind another one, unless the two least relevant are level. -/
def chooseBehind (cs : List Candidate) : Option Candidate :=
  match leastTwo cs with
  | none => none
  | some (c, none) => some c
  | some (c, some d) => if c.relevance = d.relevance then none else some c

mutual

/-- The report of a violation. -/
def Violation.report : Violation → Except Crash Report
  | .mk _ m p _ context => do
    match chooseBehind (← candidates context) with
    | none => return ⟨m, p⟩
    | some c =>
      let r ← c.report
      return ⟨r.message, p ++ r.path⟩

def candidates : List Violation → Except Crash (List Candidate)
  | [] => .ok []
  | v :: rest => do
    let relevance ← v.relevance
    return ⟨relevance, v.report⟩ :: (← candidates rest)

end

/-- The first of the most relevant candidates. -/
def mostRelevant : List Candidate → Option Candidate
  | [] => none
  | c :: rest =>
    match mostRelevant rest with
    | none => some c
    | some d => if c.isBelow d then some d else some c

end Reshape.Schema
