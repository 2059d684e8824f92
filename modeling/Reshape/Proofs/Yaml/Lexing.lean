import Reshape.Proofs.Yaml.Scanning
import Reshape.Yaml.Token.Lexer

/-! From a text to its tokens. Each step of the lexer leads to a later place of the text, or tells what
is wrong with the characters from there on; so does a run of steps. -/

namespace Reshape.Yaml

namespace Lexer

variable {s : Lexer} {c : Cursor} {step : Step}

/-- A step leads from a place to a later one, or fails as the characters there do. -/
abbrev Reads (c : Cursor) (step : Step) : Prop := Scans c Lexer.cursor step

/-- A step that reads nothing. It fails only where the text does not follow the format. -/
def Stays (c : Cursor) (step : Step) : Prop := step.Ends (·.cursor = c) (· = .malformed)

namespace Stays

theorem reads (h : Stays c step) : Reads c step :=
  Except.Ends.mono h (fun _ ht => ht ▸ .refl _) fun _ hf => hf ▸ .malformed

theorem bind (h : Stays c step) {f : Lexer → Step} (hf : ∀ t, t.cursor = c → Stays c (f t)) :
    Stays c (step >>= f) :=
  Except.Ends.bind h hf

/-- A step goes on from where the one before it stayed. -/
theorem then_reads (h : Stays c step) {f : Lexer → Step} (hf : ∀ t, t.cursor = c → Reads c (f t)) :
    Reads c (step >>= f) := by
  cases step with
  | error f =>
    obtain rfl : f = .malformed := h
    exact .malformed
  | ok t => exact hf t h

end Stays

/-! ### Between tokens -/

theorem stays_dropStale (h : s.cursor = c) : Stays c s.dropStale := by
  unfold dropStale
  split_ifs
  · exact rfl
  · exact h

theorem stays_dropCandidate (h : s.cursor = c) : Stays c s.dropCandidate := by
  unfold dropCandidate
  split
  · split_ifs
    · exact rfl
    · exact h
  · exact h

theorem stays_markCandidate (h : s.cursor = c) : Stays c s.markCandidate := by
  unfold markCandidate
  split_ifs
  · exact (stays_dropCandidate h).bind fun _ ht => ht
  · exact h

theorem cursor_close (column : Int) (outer : List Int) (s : Lexer) :
    (unwind.close column outer s).cursor = s.cursor := by
  induction outer generalizing s with
  | nil => rfl
  | cons i outer ih =>
    unfold unwind.close
    split_ifs
    · exact ih _
    · rfl

@[simp] theorem cursor_unwind (column : Int) (s : Lexer) : (s.unwind column).cursor = s.cursor := by
  unfold unwind
  split_ifs
  · exact cursor_close column s.outer s
  · rfl

@[simp] theorem cursor_deepen (s : Lexer) (column : Nat) :
    (s.deepen column).2.cursor = s.cursor := by
  unfold deepen
  split_ifs <;> rfl

theorem stays_openBlock (h : s.cursor = c) (start : Token) : Stays c (s.openBlock start) := by
  unfold openBlock
  dsimp only
  split_ifs
  · exact (s.cursor_deepen _).trans h
  · exact (s.cursor_deepen _).trans h
  · exact rfl
  · exact h

theorem reaches_skipToToken (fuel : Nat) (s : Lexer) :
    s.cursor.Reaches (s.skipToToken fuel).cursor := by
  induction fuel generalizing s with
  | zero => exact .refl _
  | succ fuel ih =>
    have hcomment := s.cursor.reaches_skipSpaces.trans (Cursor.reaches_skipComment _)
    unfold skipToToken
    dsimp only
    split_ifs
    · exact (hcomment.trans (Cursor.reaches_lineBreak _)).trans (ih _)
    · exact hcomment

/-! ### Tokens -/

theorem reaches_mark (h : s.cursor = c) (token : Token) (width : Nat) (keyAllowed : Bool) :
    c.Reaches (s.mark token width keyAllowed).cursor :=
  h ▸ s.cursor.reaches_skip width

theorem reads_content {α : Type} {read : Cursor → Except Fault (Scanned α)} {token : α → Token}
    (h : Scans s.cursor Prod.snd (read s.cursor)) : Reads s.cursor (s.content read token) :=
  (stays_markCandidate rfl).then_reads fun t ht => by
    rw [ht]
    exact h.bind fun _ _ => .refl _

theorem reads_atDocument (s : Lexer) (token : Token) : Reads s.cursor (s.atDocument token) :=
  (stays_dropCandidate (cursor_unwind _ s)).then_reads fun _ ht => reaches_mark ht ..

theorem reads_directive (s : Lexer) : Reads s.cursor s.directive :=
  (stays_dropCandidate (cursor_unwind _ s)).then_reads fun t ht => by
    rw [ht]
    exact (scans_readDirective _).bind fun _ _ => .refl _

theorem reads_openFlow (s : Lexer) (token : Token) : Reads s.cursor (s.openFlow token) :=
  (stays_markCandidate rfl).then_reads fun _ ht => reaches_mark ht token 1 true

theorem reads_closeFlow (s : Lexer) (token : Token) : Reads s.cursor (s.closeFlow token) :=
  (stays_dropCandidate rfl).then_reads fun t ht => by
    dsimp only
    split_ifs
    · exact .malformed
    · exact reaches_mark ht token 1 false

theorem reads_flowEntry (s : Lexer) : Reads s.cursor s.flowEntry :=
  (stays_dropCandidate rfl).then_reads fun _ ht => reaches_mark ht ..

theorem reads_blockEntry (s : Lexer) : Reads s.cursor s.blockEntry :=
  (stays_openBlock rfl _).then_reads fun _ ht =>
    (stays_dropCandidate ht).then_reads fun _ ht => reaches_mark ht ..

theorem reads_key (s : Lexer) : Reads s.cursor s.key :=
  (stays_openBlock rfl _).then_reads fun _ ht =>
    (stays_dropCandidate ht).then_reads fun _ ht => reaches_mark ht ..

theorem reads_value (s : Lexer) : Reads s.cursor s.value := by
  unfold value
  split
  · next k _ =>
    refine reaches_mark ?_ ..
    have hdeepen := fun s : Lexer => s.cursor_deepen k.column
    dsimp only
    split_ifs
    · exact hdeepen _
    · exact hdeepen _
    · rfl
  · exact (stays_openBlock rfl _).then_reads fun _ ht =>
      (stays_dropCandidate ht).then_reads fun _ ht => reaches_mark ht ..

theorem reads_blockScalar (folded : Bool) (s : Lexer) : Reads s.cursor (s.blockScalar folded) :=
  (stays_dropCandidate rfl).then_reads fun t ht => by
    rw [ht]
    exact .after s.cursor.reaches_next ((scans_blockText ..).bind fun _ _ => .refl _)

theorem reads_quoted (quote : Char) (s : Lexer) : Reads s.cursor (s.quoted quote) :=
  reads_content (.after s.cursor.reaches_next (scans_quotedText ..))

theorem reads_plain (s : Lexer) : Reads s.cursor s.plain :=
  (stays_markCandidate rfl).then_reads fun t ht => by
    rw [ht]
    exact reaches_plainText (t.flow != 0) (t.indent + 1) (s.cursor.rest.length + 1) [] false s.cursor

theorem reads_token (s : Lexer) : Reads s.cursor s.token := by
  unfold token
  dsimp only
  split
  · exact s.reads_openFlow _
  · exact s.reads_openFlow _
  · exact s.reads_closeFlow _
  · exact s.reads_closeFlow _
  · exact s.reads_flowEntry
  · exact reads_content (scans_readAnchor _)
  · exact reads_content (scans_readAnchor _)
  · exact reads_content (scans_readTag _)
  · exact s.reads_quoted _
  · exact s.reads_quoted _
  · split_ifs
    · exact s.reads_directive
    · exact s.reads_atDocument _
    · exact s.reads_atDocument _
    · exact s.reads_blockEntry
    · exact s.reads_key
    · exact s.reads_value
    · exact s.reads_blockScalar _
    · exact s.reads_blockScalar _
    · exact s.reads_plain
    · exact .malformed

theorem reads_atEnd (s : Lexer) : Reads s.cursor s.atEnd :=
  Stays.reads ((stays_dropCandidate (cursor_unwind _ s)).bind fun _ ht => ht)

/-! ### Runs -/

theorem reads_next (h : s.cursor = c) :
    Reads c (if s.cursor.rest.isEmpty then s.atEnd else s.token) := by
  subst h
  split_ifs
  · exact s.reads_atEnd
  · exact s.reads_token

theorem reads_advance (s : Lexer) : Reads s.cursor s.advance :=
  .after (reaches_skipToToken (s.cursor.rest.length + 1) s) <|
    (stays_dropStale rfl).then_reads fun t ht => reads_next ((cursor_unwind _ t).trans ht)

theorem run_zero (s : Lexer) : run 0 s = ⟨s.settled, .malformed⟩ := by
  rfl

theorem run_succ (fuel : Nat) (s : Lexer) :
    run (fuel + 1) s = match s.advance with
      | .error f => ⟨s.settled, f⟩
      | .ok t =>
        if t.tokens.head? = some .streamEnd then ⟨t.tokens.reverse, .malformed⟩ else run fuel t := by
  rfl

/-- What stops a run is wrong with the characters from the place on where it starts. -/
theorem run_miswritten (fuel : Nat) (s : Lexer) : Miswritten s.cursor.rest (run fuel s).fault := by
  induction fuel generalizing s with
  | zero =>
    rw [run_zero]
    exact .malformed
  | succ fuel ih =>
    have hstep := s.reads_advance
    rw [run_succ]
    split
    · next f hf =>
      rw [hf] at hstep
      exact hstep
    · next t ht =>
      rw [ht] at hstep
      split_ifs
      · exact .malformed
      · exact (ih t).mono (List.IsSuffix.isInfix hstep)

end Lexer

theorem tokens_miswritten (cs : List Char) : Miswritten cs (tokens cs).fault := by
  unfold tokens
  split_ifs
  · have hstart : (Cursor.ofChars cs).Reaches (if (Cursor.ofChars cs).peek == '\ufeff' then
        (Cursor.ofChars cs).next else Cursor.ofChars cs) := by
      split_ifs
      · exact Cursor.reaches_next _
      · exact .refl _
    exact (Lexer.run_miswritten ..).mono (List.IsSuffix.isInfix hstart)
  · exact .malformed

end Reshape.Yaml
