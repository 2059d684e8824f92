import Mathlib.Tactic
import Reshape.Proofs.Outcome
import Reshape.Yaml.Token

/-! Reading the parts of a YAML text. Whatever reads a part goes forward: the place behind the part is
a later one of the same text. Where a part cannot be read the text does not follow the format, but for
two parts with a number in them: a character written by its code, and the version of a directive. -/

namespace Reshape.Yaml

/-- What is wrong with a text whose characters cannot be read. -/
inductive Miswritten (cs : List Char) : Fault → Prop
  | malformed : Miswritten cs .malformed
  /-- A code that no character has. -/
  | code {x : Char} {ds : List Char} {f : Fault} : '\\' :: x :: ds <:+: cs →
    escapeWidth? x = some ds.length → charOfHex ds = .error f → Miswritten cs f
  /-- A version with too many digits. -/
  | version {ds : List Char} : ds <:+: cs → ds.all Char.isDigit → Json.digitLimit < ds.length →
    Miswritten cs (.unreadable (.tooManyDigits ds.length))

theorem Miswritten.mono {cs ds : List Char} {f : Fault} (h : Miswritten cs f) (hcs : cs <:+: ds) :
    Miswritten ds f := by
  cases h with
  | malformed => exact .malformed
  | code hin hwidth herror => exact .code (hin.trans hcs) hwidth herror
  | version hin hdigits hlong => exact .version (hin.trans hcs) hdigits hlong

/-! ### Places -/

namespace Cursor

variable {c d e : Cursor}

/-- The second place is the first one, or stands behind it in the same text. -/
def Reaches (c d : Cursor) : Prop := d.rest <:+ c.rest

@[simp] theorem Reaches.refl (c : Cursor) : c.Reaches c := List.suffix_rfl

theorem Reaches.trans (h : c.Reaches d) (h' : d.Reaches e) : c.Reaches e := List.IsSuffix.trans h' h

theorem rest_next (c : Cursor) : c.next.rest = c.rest.tail := by
  unfold next
  split
  · next h => rw [h, List.tail_nil]
  · next h => split <;> rw [h, List.tail_cons]

theorem reaches_next (c : Cursor) : c.Reaches c.next := by
  rw [Reaches, rest_next]
  exact List.tail_suffix _

theorem reaches_skip (c : Cursor) (n : Nat) : c.Reaches (c.skip n) := by
  induction n generalizing c with
  | zero => exact .refl c
  | succ n ih => exact c.reaches_next.trans (ih c.next)

theorem reaches_span (c : Cursor) (p : Char → Bool) : c.Reaches (c.span p).2 := c.reaches_skip _

theorem reaches_skipSpaces (c : Cursor) : c.Reaches c.skipSpaces := c.reaches_span _

theorem reaches_lineBreak (c : Cursor) : c.Reaches c.lineBreak.2 := by
  unfold lineBreak
  split
  · exact c.reaches_skip 2
  · split_ifs
    · exact c.reaches_next
    · exact c.reaches_next
    · exact .refl c
  · exact .refl c

theorem reaches_skipComment (c : Cursor) : c.Reaches c.skipComment := by
  unfold skipComment
  split_ifs
  · exact c.reaches_span _
  · exact .refl c

/-- A character that is seen is the first of what is left, unless it stands for the end. -/
theorem rest_of_peek {x : Char} (h : c.peek = x) (hx : x ≠ finish) :
    c.rest = x :: c.next.rest := by
  rw [rest_next]
  cases hrest : c.rest with
  | nil => simp [peek, peekAt, hrest, hx.symm] at h
  | cons y rest =>
    obtain rfl : y = x := by simpa [peek, peekAt, hrest] using h
    rfl

end Cursor

/-! ### Readers -/

/-- Reading from a place leads to a later one, or tells what is wrong with the text from there on. The
place that is reached is a part of what is read. -/
def Scans {α : Type} (c : Cursor) (out : α → Cursor) (x : Except Fault α) : Prop :=
  x.Ends (fun a => c.Reaches (out a)) (Miswritten c.rest)

namespace Scans

variable {α β : Type} {c d : Cursor} {out : α → Cursor} {out' : β → Cursor} {x : Except Fault α}

theorem malformed : Scans c out (.error .malformed) := Miswritten.malformed

/-- What is wrong with the text from a later place on is wrong with the text. -/
theorem after (h : c.Reaches d) (hx : Scans d out x) : Scans c out x :=
  Except.Ends.mono hx (fun _ ha => h.trans ha) fun _ hf => hf.mono h.isInfix

theorem bind (hx : Scans c out x) {f : α → Except Fault β}
    (hf : ∀ a, c.Reaches (out a) → Scans (out a) out' (f a)) : Scans c out' (x >>= f) :=
  Except.Ends.bind hx fun a ha => (hf a ha).after ha

/-- A check that does not read goes before what is read. -/
theorem check {x : Except Fault α} (hx : ∀ f, x = .error f → f = .malformed)
    {f : α → Except Fault β} (hf : ∀ a, Scans c out' (f a)) : Scans c out' (x >>= f) := by
  cases x with
  | error f =>
    obtain rfl := hx f rfl
    exact malformed
  | ok a => exact hf a

theorem require {p : Char → Bool} {y : Char} {f : Unit → Except Fault β}
    (hf : Scans c out' (f ())) : Scans c out' (Yaml.require p y >>= f) := by
  unfold Yaml.require
  split_ifs
  · exact hf
  · exact malformed

end Scans

theorem scans_restOfLine (c : Cursor) : Scans c id c.restOfLine := by
  unfold Cursor.restOfLine
  simp only
  split_ifs
  · exact (c.reaches_skipSpaces.trans (Cursor.reaches_skipComment _)).trans (Cursor.reaches_lineBreak _)
  · exact .malformed

/-! ### Quoted scalars -/

theorem scans_foldedBreaks (fuel : Nat) (c : Cursor) : Scans c Prod.snd (foldedBreaks fuel c) := by
  induction fuel generalizing c with
  | zero => exact .malformed
  | succ fuel ih =>
    unfold foldedBreaks
    have hspan := c.reaches_span fun x => x == ' ' || x == '\t'
    simp only
    split_ifs
    · exact .malformed
    · refine .after (hspan.trans (Cursor.reaches_lineBreak _)) ?_
      exact (ih _).bind fun _ _ => .refl _
    · exact hspan

theorem scans_quotedSpace (c : Cursor) : Scans c Prod.snd (quotedSpace c) := by
  unfold quotedSpace
  have hspan := c.reaches_span fun x => x == ' ' || x == '\t'
  dsimp only
  split
  · exact .malformed
  · split
    · refine .after (hspan.trans (Cursor.reaches_lineBreak _)) ?_
      exact (scans_foldedBreaks _ _).bind fun _ _ => .refl _
    · exact hspan

/-- The digits of an escape that is no character stand in the text. -/
theorem miswritten_code {c : Cursor} (h : c.peek = '\\') {w : Nat}
    (hwidth : escapeWidth? c.next.peek = some w) (hlength : (c.next.next.rest.take w).length = w)
    {f : Fault} (hf : charOfHex (c.next.next.rest.take w) = .error f) : Miswritten c.rest f := by
  have hx : c.next.peek ≠ finish := by
    intro hx
    rw [hx] at hwidth
    cases hwidth
  refine .code (x := c.next.peek) ?_ (hlength.symm ▸ hwidth) hf
  rw [Cursor.rest_of_peek h (by decide), Cursor.rest_of_peek rfl hx]
  have hprefix := List.take_prefix w c.next.next.rest
  exact ((List.prefix_cons_inj _).mpr ((List.prefix_cons_inj _).mpr hprefix)).isInfix

/-- An escape is read behind a backslash, to which a fault belongs too. -/
theorem scans_escaped {c : Cursor} (h : c.peek = '\\') : Scans c Prod.snd (escaped c.next) := by
  have htwo := c.reaches_next.trans c.next.reaches_next
  unfold escaped
  split
  · exact htwo
  · split
    · next w hwidth =>
      dsimp only
      split
      · exact .malformed
      · next hshort =>
        have hlength : (c.next.next.rest.take w).length = w :=
          le_antisymm (List.length_take_le w _) (Nat.le_of_not_lt hshort)
        cases hcode : charOfHex (c.next.next.rest.take w) with
        | ok x => exact htwo.trans (Cursor.reaches_skip _ w)
        | error f => exact miswritten_code h hwidth hlength hcode
    · split
      · exact .after (c.reaches_next.trans (Cursor.reaches_lineBreak _)) (scans_foldedBreaks _ _)
      · exact .malformed

theorem scans_quotedText (quote : Char) (fuel : Nat) (c : Cursor) :
    Scans c Prod.snd (quotedText quote fuel c) := by
  induction fuel generalizing c with
  | zero => exact .malformed
  | succ fuel ih =>
    -- a piece of the text is followed by the rest of it
    have hgo : ∀ read : Read, Scans c Prod.snd read → Scans c Prod.snd
        (read >>= fun a => quotedText quote fuel a.2 >>= fun b => pure (a.1 ++ b.1, b.2)) :=
      fun read hread => hread.bind fun a _ => (ih a.2).bind fun _ _ => .refl _
    unfold quotedText
    dsimp only
    split
    · exact hgo _ (c.reaches_span _)
    · split
      · split
        · exact hgo _ (c.reaches_skip 2)
        · exact c.reaches_next
      · split
        · exact hgo _ c.reaches_next
        · split
          · next hbackslash =>
            split
            · exact hgo _ (scans_escaped (by simpa using hbackslash))
            · exact hgo _ c.reaches_next
          · exact hgo _ (scans_quotedSpace c)

/-! ### Plain scalars -/

theorem reaches_plainBreaks (fuel : Nat) (c : Cursor) : c.Reaches (plainBreaks fuel c).2 := by
  induction fuel generalizing c with
  | zero => exact .refl c
  | succ fuel ih =>
    have hbreak := c.reaches_skipSpaces.trans c.skipSpaces.reaches_lineBreak
    unfold plainBreaks
    dsimp only
    split
    · split
      · exact hbreak
      · exact hbreak.trans (ih _)
    · exact c.reaches_skipSpaces

theorem reaches_plainSpace (c : Cursor) : c.Reaches (plainSpace c).2.2 := by
  have hspan := c.reaches_span (· == ' ')
  have hbreak := hspan.trans (Cursor.reaches_lineBreak _)
  unfold plainSpace
  dsimp only
  split
  · split
    · exact hbreak
    · generalize (c.span (· == ' ')).2.lineBreak.2 = d at hbreak ⊢
      have hbreaks := hbreak.trans (reaches_plainBreaks (d.rest.length + 1) d)
      split <;> next heq => rwa [heq] at hbreaks
  · exact hspan

theorem reaches_plainText (inFlow : Bool) (indent : Int) (fuel : Nat) (space : List Char)
    (atLine : Bool) (c : Cursor) :
    c.Reaches (plainText inFlow indent fuel space atLine c).2.2 := by
  induction fuel generalizing space atLine c with
  | zero => exact .refl c
  | succ fuel ih =>
    unfold plainText
    dsimp only
    generalize (if c.peek == '#' then [] else plainWord inFlow c.rest) = word
    have hspace := (c.reaches_skip word.length).trans (reaches_plainSpace _)
    split
    · exact .refl c
    · split
      · exact hspace
      · exact hspace.trans (ih _ _ _)

/-! ### Block scalars -/

theorem scans_blockHeader (c : Cursor) : Scans c (·.2.2) (blockHeader c) := by
  have hone := c.reaches_next
  have htwo := c.reaches_skip 2
  unfold blockHeader
  dsimp only
  -- where the header ends does not matter to what follows it
  have hend : ∀ x : Chomping × Option Nat × Cursor, c.Reaches x.2.2 →
      Scans c (·.2.2) (if (decide (x.2.1 = some 0) || !isGap x.2.2.peek) = true then
        .error .malformed else do return (x.1, x.2.1, ← x.2.2.restOfLine)) := by
    intro x hx
    split
    · exact .malformed
    · exact .after hx ((scans_restOfLine _).bind fun _ _ => .refl _)
  refine hend _ ?_
  split
  · split
    · exact htwo
    · exact hone
  · split
    · exact htwo
    · exact hone
  · exact .refl c

theorem reaches_leadingBreaks (fuel widest : Nat) (c : Cursor) :
    c.Reaches (leadingBreaks fuel widest c).2.2 := by
  induction fuel generalizing widest c with
  | zero => exact .refl c
  | succ fuel ih =>
    unfold leadingBreaks
    dsimp only
    split
    · exact c.reaches_next.trans (ih _ _)
    · split
      · exact c.reaches_lineBreak.trans (ih _ _)
      · exact .refl c

theorem reaches_skipIndent (indent fuel : Nat) (c : Cursor) :
    c.Reaches (skipIndent indent fuel c) := by
  induction fuel generalizing c with
  | zero => exact .refl c
  | succ fuel ih =>
    unfold skipIndent
    split
    · exact c.reaches_next.trans (ih _)
    · exact .refl c

theorem reaches_blockBreaks (indent fuel : Nat) (c : Cursor) :
    c.Reaches (blockBreaks indent fuel c).2 := by
  induction fuel generalizing c with
  | zero => exact .refl c
  | succ fuel ih =>
    have hindent := reaches_skipIndent indent indent c
    unfold blockBreaks
    dsimp only
    split
    · exact (hindent.trans (Cursor.reaches_lineBreak _)).trans (ih _)
    · exact hindent

theorem reaches_blockLines (folded : Bool) (indent fuel : Nat) (breaks : List Char) (c : Cursor) :
    c.Reaches (blockLines folded indent fuel breaks c).2.2.2 := by
  induction fuel generalizing breaks c with
  | zero => exact .refl c
  | succ fuel ih =>
    unfold blockLines
    have hline := (c.reaches_span fun x => !isBreakOrEnd x).trans (Cursor.reaches_lineBreak _)
    have hmore := fun fuel => hline.trans (reaches_blockBreaks indent fuel _)
    dsimp only
    split
    · exact .refl c
    · split
      · exact (hmore _).trans (ih _ _)
      · exact hmore _

theorem scans_blockText (folded : Bool) (indent : Int) (c : Cursor) :
    Scans c Prod.snd (blockText folded indent c) := by
  unfold blockText
  refine (scans_blockHeader c).bind fun ⟨chomping, increment, c⟩ _ => ?_
  cases increment with
  | none =>
    dsimp only
    exact (reaches_leadingBreaks _ _ c).trans (reaches_blockLines ..)
  | some n =>
    dsimp only
    exact (reaches_blockBreaks _ _ c).trans (reaches_blockLines ..)

/-! ### Names and tags -/

theorem scans_readName (c : Cursor) : Scans c Prod.snd (readName c) := by
  have hspan := c.reaches_span isNameChar
  unfold readName
  split
  · exact .malformed
  · next heq => rwa [heq] at hspan

theorem scans_readAnchor (c : Cursor) : Scans c Prod.snd (readAnchor c) :=
  .after c.reaches_next <| (scans_readName _).bind fun _ _ => .require <| .refl _

theorem scans_readByte (c : Cursor) : Scans c Prod.snd (readByte c) := by
  unfold readByte
  split
  · exact c.reaches_skip 3
  · exact .malformed

theorem scans_readBytes (fuel : Nat) (c : Cursor) : Scans c Prod.snd (readBytes fuel c) := by
  induction fuel generalizing c with
  | zero => exact .malformed
  | succ fuel ih =>
    unfold readBytes
    split
    · exact (scans_readByte c).bind fun a _ => (ih a.2).bind fun _ _ => .refl _
    · exact .refl c

theorem scans_readTagChars (fuel : Nat) (c : Cursor) : Scans c Prod.snd (readTagChars fuel c) := by
  induction fuel generalizing c with
  | zero => exact .malformed
  | succ fuel ih =>
    have hspan := c.reaches_span isTagChar
    unfold readTagChars
    dsimp only
    split
    · refine .after hspan ((scans_readBytes fuel _).bind fun a _ => .check ?_ fun _ => ?_)
      · intro f hf
        cases hbytes : Text.decodeStrict a.1 <;> rw [hbytes] at hf <;> cases hf
        rfl
      · exact (ih a.2).bind fun _ _ => .refl _
    · exact hspan

theorem scans_readTagText (c : Cursor) : Scans c Prod.snd (readTagText c) := by
  unfold readTagText
  refine (scans_readTagChars _ c).bind fun a _ => ?_
  dsimp only
  split
  · exact .malformed
  · exact .refl _

theorem scans_readHandle (c : Cursor) : Scans c Prod.snd (readHandle c) := by
  unfold readHandle
  refine .require ?_
  split
  · exact c.reaches_next
  · refine .after (c.reaches_next.trans (Cursor.reaches_span _ isNameChar)) (.require ?_)
    exact Cursor.reaches_next _

theorem scans_readTag (c : Cursor) : Scans c Prod.snd (readTag c) := by
  unfold readTag
  refine .bind (?_ : Scans c Prod.snd _) fun _ _ => .require <| .refl _
  split
  · refine .after (c.reaches_skip 2) ((scans_readTagText _).bind fun _ _ => .require ?_)
    exact Cursor.reaches_next _
  · split
    · exact c.reaches_next
    · split
      · refine (scans_readHandle c).bind fun a _ => ?_
        exact (scans_readTagText _).bind fun _ _ => .refl _
      · exact .after c.reaches_next ((scans_readTagText _).bind fun _ _ => .refl _)

/-! ### Directives -/

theorem scans_readVersionPart (c : Cursor) : Scans c Prod.snd (readVersionPart c) := by
  have hspan := c.reaches_span Char.isDigit
  unfold readVersionPart
  split
  · exact .malformed
  · next ds d _ heq =>
    split
    · next hlong =>
      have hds : c.rest.takeWhile Char.isDigit = ds := congrArg Prod.fst heq
      refine .version (?_ : ds <:+: c.rest) ?_ hlong
      · exact hds ▸ (List.takeWhile_prefix _).isInfix
      · exact hds ▸ List.all_takeWhile
    · rwa [heq] at hspan

theorem scans_readVersion (c : Cursor) : Scans c Prod.snd (readVersion c) := by
  refine .after c.reaches_skipSpaces ((scans_readVersionPart _).bind fun a _ => .require ?_)
  refine .after (Cursor.reaches_next _) ((scans_readVersionPart _).bind fun b _ => .require ?_)
  exact .refl _

theorem scans_readTagCommand (c : Cursor) : Scans c Prod.snd (readTagCommand c) := by
  refine .after c.reaches_skipSpaces ((scans_readHandle _).bind fun a _ => .require ?_)
  refine .after (Cursor.reaches_skipSpaces _) ((scans_readTagText _).bind fun b _ => .require ?_)
  exact .refl _

theorem scans_readDirective (c : Cursor) : Scans c Prod.snd (readDirective c) := by
  unfold readDirective
  refine .after c.reaches_next ((scans_readName _).bind fun a _ => .require ?_)
  have hline : ∀ read : Except Fault (Scanned Command), Scans a.2 Prod.snd read →
      Scans a.2 Prod.snd (read >>= fun b => b.2.restOfLine >>= fun d => pure (b.1, d)) :=
    fun read hread => hread.bind fun b _ => (scans_restOfLine b.2).bind fun d _ => .refl d
  dsimp only
  split
  · exact hline _ (scans_readVersion _)
  · exact hline _ (scans_readTagCommand _)
  · exact hline (.ok (.other, _)) (Cursor.reaches_span _ _)

end Reshape.Yaml
