import Reshape.Value.Equality
import Reshape.Yaml.Tag

/-! The tree of nodes that a YAML document is, and the value it stands for. Only scalars can be
keys; a repeated key keeps its first place and its last value, and entries that are merged in stand
in front of the mapping's own. Collections are read one level after another: a fault less deep in
the tree comes first, and of faults equally deep the one that stands first. -/

namespace Reshape.Yaml

/-- A `loop` is a collection around it, to which an alias leads back. -/
inductive Node
  | scalar (tag : Tag) (text : String)
  | sequence (tag : Tag) (items : List Node)
  | mapping (tag : Tag) (entries : List (Node × Node))
  | loop

/-- Why a node has no value, and how many collections deep in it that shows. -/
structure Flaw where
  depth : Nat
  fault : Fault
  deriving DecidableEq, Repr

/-- What a node stands for, or its first flaw. -/
abbrev Valued := Except Flaw

namespace Valued

variable {α β : Type}

/-- Both of two parts of a collection. -/
def both : Valued α → Valued β → Valued (α × β)
  | .ok a, .ok b => .ok (a, b)
  | .ok _, .error e => .error e
  | .error e, .ok _ => .error e
  | .error e, .error f => .error (if f.depth < e.depth then f else e)

/-- A part of a collection, seen from outside of the collection. -/
def inside (x : Valued α) : Valued α := x.mapError fun e => { e with depth := e.depth + 1 }

/-- What is read as soon as the collection around it is. -/
def ofRead (x : Except Fault α) : Valued α := x.mapError (⟨0, ·⟩)

end Valued

namespace Node

def empty : Node := .scalar .null ""

def tag : Node → Tag
  | .scalar t _ => t
  | .sequence t _ => t
  | .mapping t _ => t
  | .loop => .other

mutual

/-- The text of a scalar, or of what a mapping gives for a scalar. A loop never gives one. -/
def text : Node → Except Fault String
  | .scalar _ s => .ok s
  | .sequence _ _ => .error .malformed
  | .mapping _ es => defaultText es
  | .loop => .error (.crash .tooDeep)

def defaultText : List (Node × Node) → Except Fault String
  | [] => .error .malformed
  | (k, v) :: rest => if k.tag = .default then v.text else defaultText rest

end

/-- What a tag makes of a collection that is not one of its own. A point in time is never taken from
another node's text. -/
def misread (t : Tag) (n : Node) : Valued Value :=
  if t.isCollection then .error ⟨1, .malformed⟩
  else if t.isScalar then
    .ofRead do
      let s ← n.text
      if t = .moment then .error (.crash .wrongKind) else t.read s
  else .error ⟨0, .malformed⟩

def keyOf (v : Value) : Valued Key :=
  match v.toKey? with
  | some k => .ok k
  | none => .error ⟨0, .malformed⟩

/-- A node as a key, given what it stands for. That it is no scalar is known before what it holds is
read. -/
def key (n : Node) (v : Valued Value) : Valued Key :=
  match n with
  | .scalar .default s => .ok (.text s)
  | n => if n.tag.isCollection then .error ⟨0, .malformed⟩ else v >>= keyOf

mutual

/-- Whether the merge keys among entries have mappings to merge in, at every depth. -/
def canMerge : List (Node × Node) → Bool
  | [] => true
  | (.scalar .merge _, v) :: rest => v.isSource && canMerge rest
  | _ :: rest => canMerge rest

def isSource : Node → Bool
  | .mapping _ es => canMerge es
  | .sequence _ items => areSources items
  | .scalar _ _ => false
  | .loop => true

def areSources : List Node → Bool
  | [] => true
  | .mapping _ es :: rest => canMerge es && areSources rest
  | .loop :: rest => areSources rest
  | _ => false

end

mutual

def value : Node → Valued Value
  | .scalar t s => if t.isCollection then .error ⟨1, .malformed⟩ else .ofRead (t.read s)
  | .sequence .sequence items => (.array <$> values items : Valued Value).inside
  | .sequence .pairs items => (.array <$> pairs items : Valued Value).inside
  | .sequence t items => misread t (.sequence t items)
  | .mapping .mapping es =>
    if canMerge es then
      ((fun (ms, os) => .object (Entries.ofValues (ms ++ os))) <$>
        Valued.both (merged es) (own es) : Valued Value).inside
    else .error ⟨1, .malformed⟩
  | .mapping .set es =>
    if canMerge es then
      ((fun (ms, os) => .special (.set ((Entries.ofValues (ms ++ os)).map fun (k, _) => k.display))) <$>
        Valued.both (merged es) (own es) : Valued Value).inside
    else .error ⟨1, .malformed⟩
  | .mapping t es => misread t (.mapping t es)
  | .loop => .ok (.special .loop)
termination_by structural n => n

def values : List Node → Valued (List Value)
  | [] => .ok []
  | n :: rest => (fun (v, vs) => v :: vs) <$> Valued.both n.value (values rest)
termination_by structural ns => ns

/-- Items that are mappings of one entry each. -/
def pairs : List Node → Valued (List Value)
  | [] => .ok []
  | .mapping _ [(k, v)] :: rest =>
    (fun ((k, v), vs) => .array [k, v] :: vs) <$>
      Valued.both (Valued.both k.value v.value) (pairs rest)
  | _ => .error ⟨0, .malformed⟩
termination_by structural ns => ns

/-- The entries that merge keys bring. A loop brings none. -/
def merged : List (Node × Node) → Valued (List (Key × Value))
  | [] => .ok []
  | (.scalar .merge _, .mapping _ es) :: rest =>
    (fun ((ms, os), more) => ms ++ os ++ more) <$>
      Valued.both (Valued.both (merged es) (own es)) (merged rest)
  | (.scalar .merge _, .sequence _ items) :: rest =>
    (fun (ms, more) => ms ++ more) <$> Valued.both (mergedItems items) (merged rest)
  | _ :: rest => merged rest
termination_by structural es => es

/-- The entries of mappings; the first mapping comes last, so that it wins. -/
def mergedItems : List Node → Valued (List (Key × Value))
  | [] => .ok []
  | .mapping _ es :: rest =>
    (fun (more, ms, os) => more ++ (ms ++ os)) <$>
      Valued.both (mergedItems rest) (Valued.both (merged es) (own es))
  | _ :: rest => mergedItems rest
termination_by structural ns => ns

/-- The entries without merge keys. -/
def own : List (Node × Node) → Valued (List (Key × Value))
  | [] => .ok []
  | (.scalar .merge _, _) :: rest => own rest
  | (k, v) :: rest =>
    (fun (e, es) => e :: es) <$> Valued.both (Valued.both (k.key k.value) v.value) (own rest)
termination_by structural es => es

end

end Node

end Reshape.Yaml
