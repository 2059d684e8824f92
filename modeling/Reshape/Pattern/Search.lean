import Reshape.Pattern.Parser

/-! Searching a text for a pattern. A pattern leads from one place in a text to a list of places,
the preferred one first; a place that is reached twice in the same way counts once. -/

namespace Reshape.Pattern

/-- A place in a text, with what the groups have taken so far. The text before it is reversed. -/
structure Spot where
  before : List Char
  after : List Char
  taken : List (Nat × List Char)
  deriving DecidableEq

/-- Whether two spots in one text are the same. -/
def Spot.isSame (a b : Spot) : Bool := a.after.length == b.after.length && a.taken == b.taken

/-- Drops later repetitions. -/
def distinct : List Spot → List Spot → List Spot
  | seen, [] => seen.reverse
  | seen, s :: rest => if seen.any s.isSame then distinct seen rest else distinct (s :: seen) rest

def step (p : Char → Bool) (s : Spot) : List Spot :=
  match s.after with
  | c :: rest => if p c then [⟨c :: s.before, rest, s.taken⟩] else []
  | [] => []

/-- Goes over `count` characters. -/
def Spot.skip (s : Spot) : Nat → Spot
  | 0 => s
  | n + 1 =>
    match s.after with
    | c :: rest => Spot.skip ⟨c :: s.before, rest, s.taken⟩ n
    | [] => s

/-- Goes back over `count` characters. -/
def Spot.back (s : Spot) : Nat → Option Spot
  | 0 => some s
  | n + 1 =>
    match s.before with
    | c :: rest => Spot.back ⟨rest, c :: s.after, s.taken⟩ n
    | [] => none

def isWordIn (f : Flags) (c : Option Char) : Bool := c.any fun c => Category.word.holds f.ascii c

def Anchor.holds (f : Flags) (s : Spot) : Anchor → Bool
  | .textStart => s.before.isEmpty
  | .textEnd => s.after.isEmpty
  | .lineStart => s.before.isEmpty || (f.multiLine && s.before.head? == some '\n')
  | .lineEnd =>
    s.after.isEmpty || s.after == ['\n'] || (f.multiLine && s.after.head? == some '\n')
  | .boundary negated =>
    !(s.before.isEmpty && s.after.isEmpty) &&
      (isWordIn f s.before.head? != isWordIn f s.after.head?) != negated

/-- The small letter of a character. -/
def small (ascii : Bool) (c : Char) : Char :=
  if ascii then c.toLower else Text.charOfCode (Text.smallCode (Text.codeOf c))

def sameChar (f : Flags) (a b : Char) : Bool :=
  a == b || (f.ignoreCase && small f.ascii a == small f.ascii b)

/-- Whether a text starts with another one. -/
def startsWith (f : Flags) : List Char → List Char → Bool
  | _, [] => true
  | [], _ :: _ => false
  | a :: as, b :: bs => sameChar f a b && startsWith f as bs

/-- The spots after exactly `count` rounds; rounds that change nothing end early. -/
def rounds (next : List Spot → List Spot) : Nat → List Spot → List Spot
  | 0, ss => ss
  | n + 1, ss =>
    let more := next ss
    if ss.isEmpty || more == ss then ss else rounds next n more

/-- The spots after at most `count` more rounds, those of later rounds first. -/
def upToRounds (next : List Spot → List Spot) : Nat → List Spot → List Spot → List Spot
  | 0, seen, _ => seen
  | n + 1, seen, ss =>
    let more := (next ss).filter fun s => !seen.any s.isSame
    if more.isEmpty then seen else upToRounds next n (more ++ seen) more

/-- The places to which a pattern leads. -/
def Expr.ends : Expr → Spot → List Spot
  | .empty, s => [s]
  | .any f, s => step (fun c => f.dotAll || c != '\n') s
  | .set f negated members, s => step (inSet f negated members) s
  | .anchor f a, s => if a.holds f s then [s] else []
  | .seq a b, s => distinct [] ((a.ends s).flatMap b.ends)
  | .alt a b, s => distinct [] (a.ends s ++ b.ends s)
  | .repetition e least most possessive, s =>
    let next (ss : List Spot) : List Spot := distinct [] (ss.flatMap e.ends)
    let start := rounds next least [s]
    let limit := s.after.length + 1
    let count := (most.map fun m => min limit (m - least)).getD limit
    let all := upToRounds next count start start
    if possessive then all.take 1 else all
  | .group n e, s =>
    (e.ends s).map fun t =>
      let text := t.before.take (t.before.length - s.before.length)
      { t with taken := (n, text.reverse) :: t.taken.filter fun x => x.1 != n }
  | .backReference f n _, s =>
    match s.taken.lookup n with
    | some text => if startsWith f s.after text then [s.skip text.length] else []
    | none => []
  | .lookAhead negated e, s =>
    match negated, e.ends s with
    | false, t :: _ => [{ s with taken := t.taken }]
    | true, [] => [s]
    | _, _ => []
  | .lookBehind negated e, s =>
    let found : List Spot :=
      match s.back e.width.least with
      | some t => (e.ends t).filter fun u => u.after.length == s.after.length
      | none => []
    match negated, found with
    | false, t :: _ => [{ s with taken := t.taken }]
    | true, [] => [s]
    | _, _ => []
  | .atomic e, s => (e.ends s).take 1
  | .ifGroup n yes no, s => if (s.taken.lookup n).isSome then yes.ends s else no.ends s

/-- Whether a pattern matches somewhere from a place on. -/
def occursFrom (e : Expr) : List Char → List Char → Bool
  | before, [] => !(e.ends ⟨before, [], []⟩).isEmpty
  | before, c :: rest =>
    !(e.ends ⟨before, c :: rest, []⟩).isEmpty || occursFrom e (c :: before) rest

def Expr.occurs (e : Expr) (text : String) : Bool := occursFrom e [] text.toList

end Reshape.Pattern
