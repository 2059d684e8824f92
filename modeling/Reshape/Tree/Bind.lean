import Reshape.Tree

/-! Binding a document. A node's own value is extracted first; the values of bound children are then
written into it. A node is bound if its value was present or a child is bound. The children of a
container without a match are skipped. The first failure ends the run and is located at the
innermost node; before each node a token may cancel the run. -/

namespace Reshape

/-- The answers of a cancel token: whether it is set when it is asked after `n` earlier times. -/
abbrev CancelToken := Nat → Bool

/-- What a run has used: the cache, how often the token was asked, and the nodes whose extraction
has started, in order. -/
structure Session where
  cache : Cache
  polls : Nat
  started : List Node

def Session.ofCache (c : Cache) : Session := ⟨c, 0, []⟩

def Failure.locate (path : String) : Failure → Failure
  | .fault f => .fault (f.locate path)
  | .crash c => .crash c

namespace Tree

/-- Asks the token. -/
def poll (token : Option CancelToken) (s : Session) : Bool × Session :=
  match token with
  | none => (false, s)
  | some answer => (answer s.polls, { s with polls := s.polls + 1 })

def cancelledAt (path : String) : Failure :=
  .fault (.cancelled [.text ("bind cancelled at " ++ path)])

/-- Fetches the representation of a strategy and evaluates it. -/
def extractFrom (cache : Cache) (strategy : Strategy) : Outcome Extraction × Cache :=
  match strategy.representation with
  | none => (strategy.extract .null, cache)
  | some name =>
    match cache.get name with
    | (.error f, cache) => (.error f, cache)
    | (.ok document, cache) => (strategy.extract document, cache)

/-- The own step of a node: its extraction, located when it fails. -/
def extractAt (n : Node) (s : Session) : Outcome Extraction × Session :=
  let (r, cache) := extractFrom s.cache n.strategy
  (r.mapError (·.locate n.path), { s with cache, started := s.started ++ [n] })

def castFailure (path expected : String) (v : Value) : Failure :=
  .fault (.located path (.cast expected v.kind))

def capacityFailure (path : String) (length required : Nat) : Failure :=
  .fault (.located path (.capacity length required))

/-- Children are bound unless the node has no match at all. -/
def descends : Extraction → Bool
  | (.null, false) => false
  | _ => true

mutual

def bind (token : Option CancelToken) : Node → Session → Outcome Extraction × Session
  | .mk path strategy children, s =>
    match poll token s with
    | (true, s) => (.error (cancelledAt path), s)
    | (false, s) =>
      match extractAt (.mk path strategy children) s with
      | (.error f, s) => (.error f, s)
      | (.ok e, s) => if descends e then bindChildren token path children e s else (.ok e, s)

/-- Writes the children of a node into its value. -/
def bindChildren (token : Option CancelToken) (path : String) :
    Children → Extraction → Session → Outcome Extraction × Session
  | .leaf, e, s => (.ok e, s)
  | .named nodes, (v, bound), s =>
    match v with
    | .object es => bindNamed token nodes es bound s
    | _ => (.error (castFailure path "mapping" v), s)
  | .indexed slots, (v, bound), s =>
    match v with
    | .array items =>
      if items.length < slots.length then
        (.error (capacityFailure path items.length slots.length), s)
      else bindSlots token slots 0 items bound s
    | _ => (.error (castFailure path "sequence" v), s)

def bindNamed (token : Option CancelToken) :
    List (Key × Node) → List (Key × Value) → Bool → Session → Outcome Extraction × Session
  | [], es, bound, s => (.ok (.object es, bound), s)
  | (k, n) :: rest, es, bound, s =>
    match bind token n s with
    | (.error f, s) => (.error f, s)
    | (.ok (v, true), s) => bindNamed token rest (Entries.insert k v es) true s
    | (.ok (_, false), s) => bindNamed token rest es bound s

def bindSlots (token : Option CancelToken) :
    List (Option Node) → Nat → List Value → Bool → Session → Outcome Extraction × Session
  | [], _, items, bound, s => (.ok (.array items, bound), s)
  | none :: rest, i, items, bound, s => bindSlots token rest (i + 1) items bound s
  | some n :: rest, i, items, bound, s =>
    match bind token n s with
    | (.error f, s) => (.error f, s)
    | (.ok (v, true), s) => bindSlots token rest (i + 1) (items.set i v) true s
    | (.ok (_, false), s) => bindSlots token rest (i + 1) items bound s

end

end Tree

end Reshape
