import Reshape.Schema.Library
import Reshape.Schema.Step
import Reshape.Sequence
import Reshape.Text.Numeral

/-! Where a schema stands: the identifier against which its references are resolved, and those of
the resources through which it has been reached. -/

namespace Reshape.Schema

structure Scope where
  base : String
  /-- Whether the schemas of the resources have been looked through on the way. -/
  isExplored : Bool
  /-- The identifiers further out, the nearest one first. -/
  outer : List String

namespace Scope

/-- Moves to another resource. -/
def move (s : Scope) (uri : String) (isExplored : Bool) : Scope :=
  ⟨uri, isExplored,
    if !s.base.isEmpty && (s.outer.isEmpty || uri != s.base) then s.base :: s.outer else s.outer⟩

/-- The scope inside of a schema: its identifier, if it has one, is the new base. -/
def enter (s : Scope) (r : Resource) : Except Crash Scope := do
  match ← r.identifier? with
  | some i => return { s with base := ← Uri.join s.base i }
  | none => return s

end Scope

/-! ### Pointers -/

/-- A segment of a pointer as a key: `~1` is a slash and `~0` a tilde. -/
def unescapeSegment : List Char → List Char
  | '~' :: '1' :: rest => '/' :: unescapeSegment rest
  | '~' :: '0' :: rest => '~' :: unescapeSegment rest
  | c :: rest => c :: unescapeSegment rest
  | [] => []

/-- An item by its index, which may count from the end. -/
def itemAt (items : List Value) (segment : List Char) : Except Crash (Step × Value) :=
  match Text.readInteger? (String.ofList segment) with
  | none => .error .badValue
  | some n =>
    match Sequence.at? items n with
    | some v => .ok (.index n.toNat, v)
    | none => .error (.reference .noPlace)

/-- The part of a value that a segment of a pointer names. -/
def stepInto (segment : List Char) : Value → Except Crash (Step × Value)
  | .array items => itemAt items segment
  | .text s => itemAt (s.toList.map fun c => .text (String.singleton c)) segment
  | .object es =>
    let key := String.ofList (unescapeSegment segment)
    match Entries.find? (.text key) es with
    | some v => .ok (.key (.text key), v)
    | none => .error (.reference .noPlace)
  | _ => .error .wrongKind

/-- Whether steps lead from a schema to a schema in it, which is given. -/
def Holders.leadTo (h : Holders) (target : Value) : List Step → Bool
  | [] => true
  | .key (.text k) :: rest =>
    if h.mixed.contains k && isObject target then true
    else if h.single.contains k || h.optional.contains k then h.leadTo target rest
    else if h.listed.contains k || h.named.contains k then
      match rest with
      | _ :: rest => h.leadTo target rest
      | [] => false
    else false
  | _ :: _ => false

/-- Follows a pointer from a place. `trail` is how the place was reached from the last schema with
an identifier. -/
def follow (d : Dialect) (place : Value) (s : Scope) (trail : List Step) :
    List (List Char) → Except Crash (Value × Scope)
  | [] => .ok (place, s)
  | segment :: rest => do
    let (step, part) ← stepInto segment place
    let trail := trail ++ [step]
    if (Holders.of d).leadTo part trail then
      let r : Resource := ⟨d, part⟩
      let inner ← s.enter r
      follow d part inner (if (← r.identifier?).isSome then [] else trail) rest
    else follow d part s trail rest

/-! ### References -/

/-- The schema of a named place. For a dynamic one it is the outermost place of its name, as long as
those on the way are dynamic. -/
def Anchor.resolve (a : Anchor) (rs : Resources) (s : Scope) : Except Crash (Value × Scope) := do
  if !a.isDynamic then return (a.place.contents, s)
  let last ← s.outer.foldlM (fun last uri =>
    match rs.anchor s.isExplored uri a.name with
    | .ok (b, _) => .ok (if b.isDynamic then b.place else last)
    | .error (.reference .noAnchor) => .ok last
    | .error e => .error e) a.place
  return (last.contents, ← s.enter last)

/-- The identifier of a resource that a reference names, and the fragment behind it. -/
def target (s : Scope) (ref : String) : Except Crash (String × List Char) :=
  match ref.toList with
  | '#' :: fragment => .ok (s.base, fragment)
  | _ => do
    let (uri, fragment) ← Uri.defragment (← Uri.join s.base ref)
    return (uri, fragment.toList)

/-- What a reference leads to: a resource, or a place in it by a pointer or by its name. -/
def lookup (rs : Resources) (s : Scope) (ref : String) : Except Crash (Value × Scope) := do
  let (uri, fragment) ← target s ref
  match ← rs.search s.isExplored (·.resource? uri) with
  | none => throw (.reference .unresolvable)
  | some (r, isExplored) =>
    match fragment with
    | [] => return (r.contents, s.move uri isExplored)
    | '/' :: rest =>
      follow r.dialect r.contents (s.move uri isExplored) [] (Host.splitAt '/' (Uri.unescape rest))
    | name =>
      let (a, isExplored) ← rs.anchor isExplored uri (String.ofList name)
      a.resolve rs (s.move uri isExplored)

/-- Whether a schema lets a recursive reference lead further out. -/
def isRecursive (schema : Value) : Bool :=
  ((schema.get? "$recursiveAnchor").map Value.isTruthy).getD false

/-- The outermost of the schemas around a place, as long as they are recursive. -/
def lookupOuter (rs : Resources) (s : Scope) :
    List String → Value × Scope → Except Crash (Value × Scope)
  | [], found => .ok found
  | uri :: rest, found => do
    let next ← lookup rs s uri
    if isRecursive next.1 then lookupOuter rs s rest next else return found

/-- What a recursive reference leads to. -/
def lookupRecursive (rs : Resources) (s : Scope) : Except Crash (Value × Scope) := do
  let found ← lookup rs s "#"
  if isRecursive found.1 then lookupOuter rs s s.outer found else return found

end Reshape.Schema
