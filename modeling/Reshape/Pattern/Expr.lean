import Reshape.Text.Blank
import Reshape.Text.Case
import Reshape.Text.Digit
import Reshape.Text.Surrogate
import Reshape.Text.Word

/-! Patterns: regular expressions with groups, back references and look-around. -/

namespace Reshape.Pattern

/-- Why a text is no pattern: it is not well formed, it asks for more repetitions than can be
counted or in more digits than a number may have, or its switches contradict each other. -/
inductive Fault
  | malformed
  | tooMany
  | tooLong
  | contradictory
  deriving DecidableEq, Repr

abbrev Parsed := Except Fault

/-- What a part of a pattern stands for, if it is well formed. -/
def wellFormed {α : Type} : Option α → Parsed α
  | some a => .ok a
  | none => .error .malformed

/-- Switches that change what parts of a pattern mean. -/
structure Flags where
  ignoreCase : Bool := false
  multiLine : Bool := false
  dotAll : Bool := false
  ascii : Bool := false
  verbose : Bool := false
  /-- Whether the classes of all scripts are asked for; they are taken anyway, but for `ascii`. -/
  unicode : Bool := false
  deriving DecidableEq, Repr

/-- How many characters matches take: at least, and at most if there is a limit. -/
structure Width where
  least : Nat
  most : Option Nat
  deriving DecidableEq, Repr

inductive Category
  | digit
  | space
  | word
  deriving DecidableEq, Repr

/-- A member of a set of characters. -/
inductive Member
  | range (first last : Char)
  | category (c : Category) (negated : Bool)
  deriving DecidableEq, Repr

/-- A place that takes no character. -/
inductive Anchor
  | lineStart
  | lineEnd
  | textStart
  | textEnd
  | boundary (negated : Bool)
  deriving DecidableEq, Repr

inductive Expr
  | empty
  | any (f : Flags)
  | set (f : Flags) (negated : Bool) (members : List Member)
  | anchor (f : Flags) (a : Anchor)
  | seq (first second : Expr)
  | alt (first second : Expr)
  | repetition (e : Expr) (least : Nat) (most : Option Nat) (possessive : Bool)
  | group (index : Nat) (e : Expr)
  | backReference (f : Flags) (index : Nat) (width : Width)
  | lookAhead (negated : Bool) (e : Expr)
  | lookBehind (negated : Bool) (e : Expr)
  | atomic (e : Expr)
  | ifGroup (index : Nat) (yes no : Expr)
  deriving Repr, Inhabited

namespace Category

def holds (ascii : Bool) (c : Char) : Category → Bool
  | .digit => if ascii then c.isDigit else (Text.digitValue? c).isSome
  | .space =>
    Text.isBlank c && (!ascii || (c.toNat < 0x80 && !(0x1c ≤ c.toNat && c.toNat ≤ 0x1f)))
  | .word => if ascii then c.isAlphanum || c == '_' else Text.isWord c

end Category

def Member.holds (ascii : Bool) (c : Char) : Member → Bool
  | .range a b => Text.codeOf a ≤ Text.codeOf c && Text.codeOf c ≤ Text.codeOf b
  | .category k negated => k.holds ascii c != negated

/-- The characters that count as one character when case does not. -/
def caseVariants (ascii : Bool) (c : Char) : List Char :=
  if ascii then [c.toLower, c.toUpper]
  else (Text.sameLetters (Text.codeOf c)).map Text.charOfCode

/-- Whether a set holds a character; without regard to case, whether it holds it in any case. -/
def inSet (f : Flags) (negated : Bool) (members : List Member) (c : Char) : Bool :=
  let variants := if f.ignoreCase then caseVariants f.ascii c else [c]
  (variants.any fun c => members.any fun m => m.holds f.ascii c) != negated

/-! ### Widths -/

namespace Width

def exactly (n : Nat) : Width := ⟨n, some n⟩

def plus (a b : Width) : Width :=
  ⟨a.least + b.least, do return (← a.most) + (← b.most)⟩

def either (a b : Width) : Width :=
  ⟨min a.least b.least, do return max (← a.most) (← b.most)⟩

/-- Of repetitions. What takes nothing takes nothing however often. -/
def times (w : Width) (least : Nat) (most : Option Nat) : Width :=
  ⟨w.least * least,
    if w.most = some 0 || most = some 0 then some 0 else do return (← w.most) * (← most)⟩

def isFixed (w : Width) : Bool := w.most = some w.least

end Width

namespace Expr

def width : Expr → Width
  | .empty | .anchor _ _ | .lookAhead _ _ | .lookBehind _ _ => .exactly 0
  | .any _ | .set _ _ _ => .exactly 1
  | .seq a b => a.width.plus b.width
  | .alt a b | .ifGroup _ a b => a.width.either b.width
  | .repetition e least most _ => e.width.times least most
  | .group _ e | .atomic e => e.width
  | .backReference _ _ w => w

/-- Whether all that is looked for behind a place has one width, so that it is known where to
start. -/
def looksBack : Expr → Bool
  | .lookBehind _ e => e.width.isFixed && e.looksBack
  | .seq a b | .alt a b | .ifGroup _ a b => a.looksBack && b.looksBack
  | .repetition e _ _ _ | .group _ e | .lookAhead _ e | .atomic e => e.looksBack
  | _ => true

end Expr

end Reshape.Pattern
