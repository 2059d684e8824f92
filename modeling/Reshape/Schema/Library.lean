import Reshape.Schema.Meta
import Reshape.Schema.Resource
import Reshape.Schema.Uri

/-! Libraries: resources by their identifiers, and the named places in them. What is added later
counts. The resources of a schema are first its own and those of every dialect; what it holds
itself is only looked through when something is not found among them. -/

namespace Reshape.Schema

structure Library where
  resources : List (String × Resource)
  anchors : List ((String × String) × Anchor)

namespace Library

def empty : Library := ⟨[], []⟩

def resource? (l : Library) (uri : String) : Option Resource := l.resources.lookup uri

def anchor? (l : Library) (uri name : String) : Option Anchor := l.anchors.lookup (uri, name)

def add (l : Library) (uri : String) (r : Resource) : Library :=
  { l with resources := (uri, r) :: l.resources }

def addAnchors (l : Library) (uri : String) (as : List Anchor) : Library :=
  { l with anchors := (as.map fun a => ((uri, a.name), a)).reverse ++ l.anchors }

/-- Looks through a resource under an identifier, down to a depth: what it names, then the schemas
in it from the last one on. -/
def explore : Nat → Library → String → Resource → Except Crash Library
  | 0, l, _, _ => .ok l
  | depth + 1, l, outer, r => do
    let id ← r.identifier?
    let uri ← match id with
      | some i => Uri.join outer i
      | none => pure outer
    let l := if id.isSome then l.add uri r else l
    let l := l.addAnchors uri (← r.anchors)
    (← r.parts).reverse.foldlM (fun l s => explore depth l uri s) l

/-- Looks through a whole resource, which is there under an identifier. -/
def absorb (l : Library) (uri : String) (r : Resource) : Except Crash Library :=
  explore (r.contents.height + 1) l uri r

def rootUri (r : Resource) : Except Crash String := do return (← r.identifier?).getD ""

/-- The documents of every dialect. -/
def standard : Library :=
  Meta.documents.foldl (fun l (d, v) =>
    let r : Resource := ⟨d, v⟩
    match rootUri r >>= fun uri => (l.add uri r).absorb uri r with
    | .ok m => m
    | .error _ => l) empty

end Library

/-- What references of a schema can lead to, at once or after its schemas are looked through. -/
structure Resources where
  known : Library
  explored : Except Crash Library

namespace Resources

def ofResource (uri : String) (r : Resource) : Resources :=
  let known := Library.standard.add uri r
  ⟨known, known.absorb uri r⟩

/-- What is known, or what has been looked through. -/
def table (rs : Resources) (isExplored : Bool) : Except Crash Library :=
  if isExplored then rs.explored else .ok rs.known

/-- Looks for something in what is known, and then in what is explored. Also says whether the
search has come to that. -/
def search {α : Type} (rs : Resources) (isExplored : Bool) (find : Library → Option α) :
    Except Crash (Option (α × Bool)) := do
  match find (← rs.table isExplored) with
  | some a => return some (a, isExplored)
  | none => return (find (← rs.explored)).map (·, true)

def anchorFault (name : String) : Crash :=
  .reference (if name.contains '/' then .invalidAnchor else .noAnchor)

/-- A named place, also by the identifier that a resource gives itself. -/
def anchor (rs : Resources) (isExplored : Bool) (uri name : String) :
    Except Crash (Anchor × Bool) := do
  match ← rs.search isExplored (·.anchor? uri name) with
  | some found => return found
  | none =>
    match (← rs.table isExplored).resource? (withoutMark uri) with
    | none => throw (.reference .noResource)
    | some r =>
      let own ← r.identifier?
      match own.bind fun i => rs.explored.toOption.bind (·.anchor? i name) with
      | some a => return (a, true)
      | none => throw (anchorFault name)

end Resources

end Reshape.Schema
