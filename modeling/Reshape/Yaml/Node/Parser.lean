import Reshape.Yaml.Node
import Reshape.Yaml.Token.Lexer

/-! From tokens to the tree of nodes. A node may carry an anchor and a tag, in either order; an
alias stands for the node of its anchor, or for a loop if that node is not complete yet. -/

namespace Reshape.Yaml

/-- The tokens ahead, what is wrong behind the last of them, and the nodes of the anchors so far. -/
structure Reader where
  tokens : List Token
  fault : Fault
  anchors : List (String × Node) := []

/-- Prefixes of tag names by their handles. -/
abbrev Handles := List (String × String)

/-- Collections may be nested this deep. -/
def depthLimit : Nat := 480

namespace Reader

def next (r : Reader) : Reader := { r with tokens := r.tokens.tail }

def peek (r : Reader) : Except Fault Token :=
  match r.tokens with
  | t :: _ => .ok t
  | [] => .error r.fault

def sees (r : Reader) (ts : List Token) : Except Fault Bool := do return ts.contains (← r.peek)

/-- Goes over a token that must come next. -/
def expect (r : Reader) (t : Token) : Except Fault Reader := do
  if ← r.sees [t] then return r.next else .error .malformed

end Reader

/-- A node as it was read, and the state behind it. -/
abbrev Parsed (α : Type) := α × Reader

/-! ### Properties -/

/-- The anchor and the tag of a node. -/
structure Properties where
  anchor : Option String := none
  tag : Option String := none

def TagName.resolve (handles : Handles) (n : TagName) : Except Fault String :=
  match n.handle with
  | none => .ok n.suffix
  | some h =>
    match handles.lookup h with
    | some base => .ok (base ++ n.suffix)
    | none => .error .malformed

def Properties.read (handles : Handles) (r : Reader) : Except Fault (Properties × Reader) := do
  match ← r.peek with
  | .anchor a =>
    match ← r.next.peek with
    | .tag t => return (⟨some a, some (← t.resolve handles)⟩, r.next.next)
    | _ => return (⟨some a, none⟩, r.next)
  | .tag t =>
    match ← r.next.peek with
    | .anchor a => return (⟨some a, some (← t.resolve handles)⟩, r.next.next)
    | _ => return (⟨none, some (← t.resolve handles)⟩, r.next)
  | _ => return ({}, r)

def Properties.isEmpty (p : Properties) : Bool := p.anchor.isNone && p.tag.isNone

/-- The tag of a scalar. An exclamation mark alone asks for the tag of the form. -/
def Properties.ofScalar (p : Properties) (s : String) (plain : Bool) : Tag :=
  match p.tag with
  | none => if plain then .ofPlain s else .text
  | some t => if t = "!" then .ofForm s else .ofName t

/-- The tag of a collection. -/
def Properties.ofCollection (p : Properties) (usual : Tag) : Tag :=
  match p.tag with
  | none => usual
  | some t => if t = "!" then usual else .ofName t

/-- Enters a node under its anchor, which must be new. Inside of the node it stands for a loop. -/
def Reader.enter (r : Reader) : Option String → Except Fault Reader
  | none => .ok r
  | some a =>
    if (r.anchors.lookup a).isSome then .error .malformed
    else .ok { r with anchors := (a, .loop) :: r.anchors }

def Reader.leave (r : Reader) (n : Node) : Option String → Reader
  | none => r
  | some a => { r with anchors := (a, n) :: r.anchors }

/-- The node of an alias. -/
def Reader.alias (r : Reader) (name : String) : Except Fault Node :=
  match r.anchors.lookup name with
  | some n => .ok n
  | none => .error .malformed

/-! ### Nodes -/

/-- Where a node stands, which decides what it can be. -/
inductive Position
  | flow
  | block
  /-- The key or the value of a block mapping, where a sequence may stand without indentation. -/
  | entry
  deriving DecidableEq

mutual

/-- A node, read in at most `fuel` steps and nested at most `depth` deep. -/
def parseNode (handles : Handles) : Nat → Nat → Position → Reader → Except Fault (Parsed Node)
  | 0, _, _, _ => .error .malformed
  | fuel + 1, depth, position, r => do
    match ← r.peek with
    | .alias name => return (← r.alias name, r.next)
    | _ =>
      let (p, r) ← Properties.read handles r
      let t ← r.peek
      let r ← r.enter p.anchor
      let (n, r) ← parseContent handles fuel depth position p t r
      return (n, r.leave n p.anchor)
termination_by structural fuel => fuel

/-- What follows the properties of a node, from the token `t` on. -/
def parseContent (handles : Handles) :
    Nat → Nat → Position → Properties → Token → Reader → Except Fault (Parsed Node)
  | fuel + 1, depth + 1, position, p, t, r =>
    match t with
    | .scalar s plain => .ok (.scalar (p.ofScalar s plain) s, r.next)
    | .flowSequenceStart => do
      let (items, r) ← parseFlowItems handles fuel depth true r.next
      return (.sequence (p.ofCollection .sequence) items, r)
    | .flowMappingStart => do
      let (es, r) ← parseFlowEntries handles fuel depth true r.next
      return (.mapping (p.ofCollection .mapping) es, r)
    | t =>
      if t = .blockEntry ∧ position = .entry then do
        let (items, r) ← parseBareItems handles fuel depth r
        return (.sequence (p.ofCollection .sequence) items, r)
      else if t = .blockSequenceStart ∧ position ≠ .flow then do
        let (items, r) ← parseBlockItems handles fuel depth r.next
        return (.sequence (p.ofCollection .sequence) items, r)
      else if t = .blockMappingStart ∧ position ≠ .flow then do
        let (es, r) ← parseBlockEntries handles fuel depth r.next
        return (.mapping (p.ofCollection .mapping) es, r)
      else if p.isEmpty then .error .malformed
      else .ok (.scalar (p.ofScalar "" true) "", r)
  | _, 0, _, _, _, _ => .error (.crash .tooDeep)
  | 0, _, _, _, _, _ => .error .malformed
termination_by structural fuel => fuel

/-- A node, or an empty one where one of `stops` comes first. -/
def parseOptional (handles : Handles) (stops : List Token) :
    Nat → Nat → Position → Reader → Except Fault (Parsed Node)
  | 0, _, _, _ => .error .malformed
  | fuel + 1, depth, position, r => do
    if ← r.sees stops then return (.empty, r) else parseNode handles fuel depth position r
termination_by structural fuel => fuel

/-- The node behind a mark, or an empty one where the mark is missing. -/
def parseMarked (handles : Handles) (mark : Token) (stops : List Token) :
    Nat → Nat → Position → Reader → Except Fault (Parsed Node)
  | 0, _, _, _ => .error .malformed
  | fuel + 1, depth, position, r => do
    if ← r.sees [mark] then parseOptional handles stops fuel depth position r.next
    else return (.empty, r)
termination_by structural fuel => fuel

/-- Items of a block sequence up to its end. -/
def parseBlockItems (handles : Handles) : Nat → Nat → Reader → Except Fault (Parsed (List Node))
  | 0, _, _ => .error .malformed
  | fuel + 1, depth, r => do
    if ← r.sees [.blockEntry] then
      let (n, r) ← parseOptional handles [.blockEntry, .blockEnd] fuel depth .block r.next
      let (ns, r) ← parseBlockItems handles fuel depth r
      return (n :: ns, r)
    else if ← r.sees [.blockEnd] then return ([], r.next)
    else .error .malformed
termination_by structural fuel => fuel

/-- Items of a sequence without indentation, as long as there are any. -/
def parseBareItems (handles : Handles) : Nat → Nat → Reader → Except Fault (Parsed (List Node))
  | 0, _, _ => .error .malformed
  | fuel + 1, depth, r => do
    if ← r.sees [.blockEntry] then
      let (n, r) ←
        parseOptional handles [.blockEntry, .key, .value, .blockEnd] fuel depth .block r.next
      let (ns, r) ← parseBareItems handles fuel depth r
      return (n :: ns, r)
    else return ([], r)
termination_by structural fuel => fuel

/-- Entries of a block mapping up to its end. -/
def parseBlockEntries (handles : Handles) :
    Nat → Nat → Reader → Except Fault (Parsed (List (Node × Node)))
  | 0, _, _ => .error .malformed
  | fuel + 1, depth, r => do
    if ← r.sees [.key] then
      let stops := [.key, .value, .blockEnd]
      let (k, r) ← parseOptional handles stops fuel depth .entry r.next
      let (v, r) ← parseMarked handles .value stops fuel depth .entry r
      let (es, r) ← parseBlockEntries handles fuel depth r
      return ((k, v) :: es, r)
    else if ← r.sees [.blockEnd] then return ([], r.next)
    else .error .malformed
termination_by structural fuel => fuel

/-- Items of a flow sequence up to its end. A key among them begins a mapping of one entry. -/
def parseFlowItems (handles : Handles) :
    Nat → Nat → Bool → Reader → Except Fault (Parsed (List Node))
  | 0, _, _, _ => .error .malformed
  | fuel + 1, depth, first, r => do
    if ← r.sees [.flowSequenceEnd] then return ([], r.next)
    let r ← if first then .ok r else r.expect .flowEntry
    if ← r.sees [.flowSequenceEnd] then return ([], r.next)
    let (n, r) ←
      if ← r.sees [.key] then parsePair handles fuel depth r.next
      else parseNode handles fuel depth .flow r
    let (ns, r) ← parseFlowItems handles fuel depth false r
    return (n :: ns, r)
termination_by structural fuel => fuel

/-- A mapping of one entry inside of a flow sequence. -/
def parsePair (handles : Handles) : Nat → Nat → Reader → Except Fault (Parsed Node)
  | 0, _, _ => .error .malformed
  | _, 0, _ => .error (.crash .tooDeep)
  | fuel + 1, depth + 1, r => do
    let (k, r) ←
      parseOptional handles [.value, .flowEntry, .flowSequenceEnd] fuel depth .flow r
    let (v, r) ←
      parseMarked handles .value [.flowEntry, .flowSequenceEnd] fuel depth .flow r
    return (.mapping .mapping [(k, v)], r)
termination_by structural fuel => fuel

/-- Entries of a flow mapping up to its end. -/
def parseFlowEntries (handles : Handles) :
    Nat → Nat → Bool → Reader → Except Fault (Parsed (List (Node × Node)))
  | 0, _, _, _ => .error .malformed
  | fuel + 1, depth, first, r => do
    if ← r.sees [.flowMappingEnd] then return ([], r.next)
    let r ← if first then .ok r else r.expect .flowEntry
    if ← r.sees [.flowMappingEnd] then return ([], r.next)
    let (e, r) ← parseFlowEntry handles fuel depth r
    let (es, r) ← parseFlowEntries handles fuel depth false r
    return (e :: es, r)
termination_by structural fuel => fuel

/-- An entry of a flow mapping. A node without a key mark has no value. -/
def parseFlowEntry (handles : Handles) : Nat → Nat → Reader → Except Fault (Parsed (Node × Node))
  | 0, _, _ => .error .malformed
  | fuel + 1, depth, r => do
    if ← r.sees [.key] then
      let (k, r) ←
        parseOptional handles [.value, .flowEntry, .flowMappingEnd] fuel depth .flow r.next
      let (v, r) ← parseMarked handles .value [.flowEntry, .flowMappingEnd] fuel depth .flow r
      return ((k, v), r)
    else
      let (k, r) ← parseNode handles fuel depth .flow r
      return ((k, .empty), r)
termination_by structural fuel => fuel

end

/-! ### Documents -/

def defaultHandles : Handles := [("!", "!"), ("!!", tagBase)]

/-- Directives in front of a document: at most one version, which is 1, and no handle twice. -/
def readDirectives : Bool → Handles → List Token → Except Fault (Handles × List Token)
  | versioned, hs, .directive (.version major) :: rest =>
    if versioned || major ≠ 1 then .error .malformed else readDirectives true hs rest
  | versioned, hs, .directive (.tag h value) :: rest =>
    if (hs.lookup h).isSome then .error .malformed
    else readDirectives versioned ((h, value) :: hs) rest
  | versioned, hs, .directive .other :: rest => readDirectives versioned hs rest
  | _, hs, ts => .ok (hs ++ defaultHandles, ts)

/-- The handles of a document that starts with directives or a mark, and the state behind the mark. -/
def Reader.startDocument (r : Reader) : Except Fault (Handles × Reader) := do
  let (handles, ts) ← readDirectives false [] r.tokens
  return (handles, ← { r with tokens := ts }.expect .documentStart)

/-- A document up to its end; behind its mark it may be missing. -/
def parseDocument (fuel : Nat) (r : Reader) : Except Fault (Parsed Node) := do
  match ← r.peek with
  | .streamEnd => return (.empty, r)
  | .documentStart | .directive _ =>
    let (handles, r) ← r.startDocument
    match ← r.peek with
    | .directive _ | .documentStart | .documentEnd | .streamEnd => return (.empty, r)
    | _ => parseNode handles fuel depthLimit .block r
  | _ => parseNode defaultHandles fuel depthLimit .block r

/-- Nothing may stand behind the document; another one is refused when its mark is read. -/
def Reader.finish (r : Reader) : Except Fault Unit := do
  let r := { r with tokens := r.tokens.dropWhile (· = Token.documentEnd) }
  match ← r.peek with
  | .streamEnd => return ()
  | _ =>
    let _ ← r.startDocument
    .error .malformed

/-- The one document in a row of tokens; nothing at all is an empty one. -/
def Node.ofTokens (ts : Tokens) : Except Fault Node := do
  let (n, r) ← parseDocument (8 * ts.ready.length + 8) ⟨ts.ready, ts.fault, []⟩
  r.finish
  return n

end Reshape.Yaml
