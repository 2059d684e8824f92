import Reshape.Pattern.Quantifier
import Reshape.Pattern.Set
import Reshape.Text.Numeral

/-! Parsing of patterns. -/

namespace Reshape.Pattern

/-- What is left of a pattern, and what is known from what stands before it. -/
structure Cursor where
  rest : List Char
  groups : Nat := 0
  /-- The widths of the groups that are closed. -/
  widths : List (Nat × Width) := []
  names : List (String × Nat) := []
  /-- The greatest group that a condition refers to. -/
  awaited : Nat := 0
  /-- How many groups there were in front of the outermost look behind that is open. -/
  behind : Option Nat := none
  flags : Flags := {}

/-- What a part of a sequence is, as far as repeating it goes. -/
inductive PartKind
  | plain
  | anchor
  | repeated
  deriving DecidableEq

structure Part where
  expr : Expr
  kind : PartKind

namespace Cursor

/-- The same settings at another place. -/
def moveTo (c : Cursor) (rest : List Char) : Cursor := { c with rest }

end Cursor

/-- Repeats the last part of a sequence, which is given in reverse. -/
def repeatLast (q : Quantifier) (possessive : Bool) : List Part → Option (List Part)
  | ⟨e, .plain⟩ :: parts =>
    if q.isValid then some (⟨.repetition e q.least q.most possessive, .repeated⟩ :: parts) else none
  | _ => none

/-! ### Groups -/

def isNameStart (c : Char) : Bool := Text.isWord c && (Text.digitValue? c).isNone

/-- A name up to a closing character. -/
def groupName (closing : Char) (cs : List Char) : Option (String × List Char) :=
  match cs.dropWhile (· != closing) with
  | [] => none
  | _ :: rest =>
    match cs.takeWhile (· != closing) with
    | [] => none
    | c :: name =>
      if isNameStart c && name.all Text.isWord then some (String.ofList (c :: name), rest) else none

def setFlag (on : Bool) (f : Flags) : Char → Option Flags
  | 'i' => some { f with ignoreCase := on }
  | 'm' => some { f with multiLine := on }
  | 's' => some { f with dotAll := on }
  | 'x' => some { f with verbose := on }
  | 'a' => if on then some { f with ascii := true, unicode := false } else none
  | 'u' => if on then some { f with ascii := false, unicode := true } else none
  | _ => none

def setFlags (on : Bool) (f : Flags) (letters : List Char) : Option Flags :=
  letters.foldlM (setFlag on) f

/-- Flags before a colon or a closing parenthesis. -/
inductive FlagGroup
  | whole (f : Flags)
  | scoped (f : Flags)

def flagGroup (f : Flags) (cs : List Char) : Option (FlagGroup × List Char) := do
  let letters := cs.takeWhile Char.isAlpha
  let both := letters.contains 'a' && letters.contains 'u'
  if both then none
  let g ← setFlags true f letters
  match cs.dropWhile Char.isAlpha with
  | ')' :: rest => if letters.isEmpty then none else return (.whole g, rest)
  | ':' :: rest => return (.scoped g, rest)
  | '-' :: more =>
    let off := more.takeWhile Char.isAlpha
    if off.isEmpty || off.any letters.contains then none
    let g ← setFlags false g off
    match more.dropWhile Char.isAlpha with
    | ':' :: rest => return (.scoped g, rest)
    | _ => none
  | _ => none

/-- Whether a group may be referred to: inside of a look behind only one that was closed before. -/
def isWithinReach (c : Cursor) (index : Nat) : Bool :=
  match c.behind with
  | some n => index ≤ n && (c.widths.lookup index).isSome
  | none => true

/-- A reference to a group that is closed. -/
def reference (c : Cursor) (index : Nat) : Option Expr := do
  let width ← c.widths.lookup index
  if isWithinReach c index then return .backReference c.flags index width else none

/-- The first number that no group can have. -/
def groupLimit : Nat := 1073741823

/-- A group's number, which may belong to a group further on. -/
def groupNumber (cs : List Char) : Option Nat :=
  match Text.readInteger? (String.ofList cs) with
  | some n => if 0 < n && n < groupLimit then some n.toNat else none
  | none => none

/-- The group of a condition, given by name or by number. -/
def conditionGroup (c : Cursor) (cs : List Char) : Option (Nat × Cursor) := do
  let index ← match groupName ')' cs with
    | some (name, _) => c.names.lookup name
    | none => groupNumber (cs.takeWhile (· != ')'))
  match cs.dropWhile (· != ')') with
  | _ :: rest =>
    if isWithinReach c index then
      return (index, { c with rest, awaited := max c.awaited index })
    else none
  | [] => none

/-- An escape outside of a set, behind its backslash. -/
def escape (c : Cursor) : List Char → Option (Part × List Char)
  | [] => none
  | x :: rest =>
    let literal : Char × List Char → Part × List Char :=
      fun (y, rest) => (⟨.set c.flags false [.range y y], .plain⟩, rest)
    match anchorEscape? x, category? x with
    | some a, _ => some (⟨.anchor c.flags a, .anchor⟩, rest)
    | _, some m => some (⟨.set c.flags false [m], .plain⟩, rest)
    | none, none =>
      if x = '0' then
        let ds := (rest.take 2).takeWhile isOctal
        (octal (x :: ds) (rest.drop ds.length)).map literal
      else if x.isDigit then
        match rest with
        | y :: z :: more =>
          if isOctal x && isOctal y && isOctal z then (octal [x, y, z] more).map literal
          else if y.isDigit then
            (reference c (natOf 10 [x, y])).map fun e => (⟨e, .plain⟩, z :: more)
          else (reference c (natOf 10 [x])).map fun e => (⟨e, .plain⟩, rest)
        | [y] =>
          if y.isDigit then (reference c (natOf 10 [x, y])).map fun e => (⟨e, .plain⟩, [])
          else (reference c (natOf 10 [x])).map fun e => (⟨e, .plain⟩, rest)
        | [] => (reference c (natOf 10 [x])).map fun e => (⟨e, .plain⟩, rest)
      else (charEscape x rest).map literal

def joinParts (parts : List Part) : Expr :=
  parts.foldl (fun e p => match e with
    | .empty => p.expr
    | _ => .seq p.expr e) .empty

/-- Space and comments that verbose patterns skip. -/
def skipVerbose (c : Cursor) : Nat → Cursor
  | 0 => c
  | steps + 1 =>
    if !c.flags.verbose then c
    else
      match c.rest with
      | '#' :: rest => skipVerbose (c.moveTo (rest.dropWhile (· != '\n'))) steps
      | x :: rest =>
        if Text.isBlank x && x.toNat < 0x80 then skipVerbose (c.moveTo rest) steps else c
      | [] => c

/-- Closes a group. -/
def close (c : Cursor) : Option Cursor :=
  match c.rest with
  | ')' :: rest => some (c.moveTo rest)
  | _ => none

/-- Opens the next group. -/
def openGroup (c : Cursor) (rest : List Char) : Nat × Cursor :=
  (c.groups + 1, { c with rest, groups := c.groups + 1 })

def closeGroup (n : Nat) (e : Expr) (c : Cursor) : Option Cursor :=
  (close c).map fun c => { c with widths := (n, e.width) :: c.widths }

/-- Switches for the whole pattern. -/
def Flags.join (f g : Flags) : Flags :=
  { g with ascii := f.ascii || g.ascii, unicode := f.unicode || g.unicode }

/-- The cursor behind a part that was read with other settings. -/
def Cursor.leave (c outer : Cursor) : Cursor :=
  { c with flags := outer.flags, behind := outer.behind }

/-- A choice between at most two alternatives, by whether a group has taken part. -/
def branches (group : Nat) : Expr → Parsed Expr
  | .alt _ (.alt _ _) => .error .malformed
  | .alt yes no => .ok (.ifGroup group yes no)
  | yes => .ok (.ifGroup group yes .empty)

def plain (e : Expr) (c : Cursor) : Parsed (Option Part × Cursor) := .ok (some ⟨e, .plain⟩, c)

mutual

/-- Alternatives up to the end or a closing parenthesis. `top` says that no part precedes. -/
def alternatives : Nat → Bool → Cursor → Parsed (Expr × Cursor)
  | 0, _, _ => .error .malformed
  | fuel + 1, top, c => do
    let (e, c) ← sequence fuel top [] c
    match c.rest with
    | '|' :: rest =>
      let (f, c) ← alternatives fuel false (c.moveTo rest)
      return (.alt e f, c)
    | _ => return (e, c)

/-- Parts in a row; `parts` are those before, the last one first. -/
def sequence : Nat → Bool → List Part → Cursor → Parsed (Expr × Cursor)
  | 0, _, _, _ => .error .malformed
  | fuel + 1, top, parts, c =>
    let c := skipVerbose c c.rest.length
    match c.rest with
    | [] => .ok (joinParts parts, c)
    | '|' :: _ => .ok (joinParts parts, c)
    | ')' :: _ => .ok (joinParts parts, c)
    | _ =>
      match quantifier? c.rest with
      | .error f => .error f
      | .ok (some (q, rest)) => do
        let (possessive, rest) := takeMode rest
        let parts ← wellFormed (repeatLast q possessive parts)
        sequence fuel top parts (c.moveTo rest)
      | .ok none => do
        match ← part fuel (top && parts.isEmpty) c with
        | (some p, c) => sequence fuel top (p :: parts) c
        | (none, c) => sequence fuel top parts c

/-- One part, or a comment or flags. -/
def part : Nat → Bool → Cursor → Parsed (Option Part × Cursor)
  | 0, _, _ => .error .malformed
  | fuel + 1, top, c =>
    match c.rest with
    | [] => .error .malformed
    | '\\' :: rest => do
      let (p, rest) ← wellFormed (escape c rest)
      return (some p, c.moveTo rest)
    | '[' :: rest => do
      let (e, rest) ← wellFormed (setOf c.flags rest)
      plain e (c.moveTo rest)
    | '.' :: rest => plain (.any c.flags) (c.moveTo rest)
    | '^' :: rest => .ok (some ⟨.anchor c.flags .lineStart, .anchor⟩, c.moveTo rest)
    | '$' :: rest => .ok (some ⟨.anchor c.flags .lineEnd, .anchor⟩, c.moveTo rest)
    | '(' :: '?' :: rest => extension fuel top rest c
    | '(' :: rest => do
      let (n, inner) := openGroup c rest
      let (e, d) ← alternatives fuel false inner
      let d ← wellFormed (closeGroup n e d)
      plain (.group n e) (d.leave c)
    | x :: rest => plain (.set c.flags false [.range x x]) (c.moveTo rest)

/-- A group that starts with a question mark, behind it. -/
def extension : Nat → Bool → List Char → Cursor → Parsed (Option Part × Cursor)
  | 0, _, _, _ => .error .malformed
  | fuel + 1, top, cs, c =>
    let inside (c' : Cursor) (build : Expr → Parsed Expr) : Parsed (Option Part × Cursor) := do
      let (e, d) ← alternatives fuel false c'
      let d ← wellFormed (close d)
      plain (← build e) (d.leave c)
    let behind (rest : List Char) : Cursor :=
      { c with rest, behind := some (c.behind.getD c.groups) }
    match cs with
    | ':' :: rest => inside (c.moveTo rest) .ok
    | '>' :: rest => inside (c.moveTo rest) fun e => .ok (.atomic e)
    | '=' :: rest => inside (c.moveTo rest) fun e => .ok (.lookAhead false e)
    | '!' :: rest => inside (c.moveTo rest) fun e => .ok (.lookAhead true e)
    | '<' :: '=' :: rest => inside (behind rest) fun e => .ok (.lookBehind false e)
    | '<' :: '!' :: rest => inside (behind rest) fun e => .ok (.lookBehind true e)
    | '#' :: rest =>
      match rest.dropWhile (· != ')') with
      | _ :: rest => .ok (none, c.moveTo rest)
      | [] => .error .malformed
    | 'P' :: '<' :: rest => do
      let (name, rest) ← wellFormed <| groupName '>' rest
      if c.names.any fun n => n.1 == name then throw .malformed
      let (n, inner) := openGroup c rest
      let (e, d) ← alternatives fuel false { inner with names := (name, n) :: inner.names }
      let d ← wellFormed (closeGroup n e d)
      plain (.group n e) (d.leave c)
    | 'P' :: '=' :: rest => do
      let (name, rest) ← wellFormed <| groupName ')' rest
      let e ← wellFormed (c.names.lookup name >>= reference c)
      plain e (c.moveTo rest)
    | '(' :: rest => do
      let (n, c') ← wellFormed (conditionGroup c rest)
      inside c' (branches n)
    | _ => do
      match ← wellFormed (flagGroup c.flags cs) with
      | (.whole f, rest) =>
        if top then return (none, { c with rest, flags := c.flags.join f }) else throw .malformed
      | (.scoped f, rest) => inside { c with rest, flags := f } .ok

end

/-- The pattern that a text spells. -/
def parse (s : String) : Parsed Expr := do
  let (e, c) ← alternatives (4 * s.length + 4) true { rest := s.toList }
  if c.flags.ascii && c.flags.unicode then throw .contradictory
  if c.rest.isEmpty && c.awaited ≤ c.groups && e.looksBack then return e else throw .malformed

end Reshape.Pattern
