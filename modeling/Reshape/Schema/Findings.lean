import Reshape.Schema.Violation

/-! Findings: the violations that a check yields one after the other. A check may be brief, when all
that counts is whether there is any. -/

namespace Reshape.Schema

/-- The violations found in order, up to a crash if there is one. -/
structure Findings where
  violations : List Violation
  crash : Option Crash

namespace Findings

def none : Findings := ⟨[], .none⟩

def stopped (c : Crash) : Findings := ⟨[], some c⟩

def single (v : Violation) : Findings := ⟨[v], .none⟩

/-- Findings, or a crash before anything is found. -/
def ofResult : Except Crash Findings → Findings
  | .ok f => f
  | .error c => stopped c

/-- What is found after a crash is lost. -/
def append (a b : Findings) : Findings :=
  match a.crash with
  | some _ => a
  | .none => ⟨a.violations ++ b.violations, b.crash⟩

instance : Append Findings := ⟨append⟩

/-- Whether nothing more is looked for: behind a crash, or behind a violation if the check is
brief. -/
def isFinal (brief : Bool) (f : Findings) : Bool :=
  f.crash.isSome || (brief && !f.violations.isEmpty)

/-- What is found in parts one after the other. -/
def forEach {α : Type} (brief : Bool) (find : α → Except Crash Findings) : List α → Findings
  | [] => none
  | x :: rest =>
    let f := ofResult (find x)
    if f.isFinal brief then f else f ++ forEach brief find rest

def under (step : Step) (f : Findings) : Findings :=
  { f with violations := f.violations.map (·.under step) }

/-- Whether nothing is violated. A crash behind a violation is not reached. -/
def isClean (f : Findings) : Except Crash Bool :=
  match f.violations, f.crash with
  | _ :: _, _ => .ok false
  | [], some c => .error c
  | [], .none => .ok true

/-- All violations of a check that is not brief. -/
def all (f : Findings) : Except Crash (List Violation) :=
  match f.crash with
  | some c => .error c
  | .none => .ok f.violations

/-- The report of the most relevant violation, if there is one. -/
def report (f : Findings) : Except Crash (Option Report) := do
  let cs ← candidates f.violations
  if let some c := f.crash then throw c
  match mostRelevant cs with
  | some c => return some (← c.report)
  | .none => return .none

end Findings

end Reshape.Schema
