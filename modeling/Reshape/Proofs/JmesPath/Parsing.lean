import Reshape.JmesPath.Parser
import Reshape.Proofs.Outcome

/-! What parsing can give. An expression is an operand that operators extend one after the other, so
that what holds of every operand and is kept by every operator holds of every expression that is
parsed. An operand is a field, a group in parentheses or something composite, and an operator makes a
chain or something composite: no expression is a bare flattening, which always stands below a
projection. -/

namespace Reshape.JmesPath

/-! ### Induction -/

/-- What a parser of expressions reads satisfies `P`: where it starts, what it reads, where it ends. -/
def SubParser.Satisfies (P : Cursor → Expr → Cursor → Prop) (expr : SubParser) : Prop :=
  ∀ power c e c', expr power c = .ok (e, c') → P c e c'

section Induction

variable {P : Cursor → Expr → Cursor → Prop}

theorem extend_satisfies {expr : SubParser}
    (hoperator : ∀ c₀ left c e c', P c₀ left c → operator expr c.peek left c.skip = .ok (e, c') →
      P c₀ e c') {c₀ : Cursor} (power steps : Nat) {left : Expr} {c : Cursor} (hleft : P c₀ left c)
    {e : Expr} {c' : Cursor} (h : extend expr power steps left c = .ok (e, c')) : P c₀ e c' := by
  induction steps generalizing left c with
  | zero =>
    cases h
    exact hleft
  | succ steps ih =>
    rw [extend] at h
    split_ifs at h
    · obtain ⟨⟨e', c''⟩, ho, h⟩ := Except.bind_eq_ok.mp h
      exact ih (hoperator _ _ _ _ _ hleft ho) h
    · cases h
      exact hleft

/-- What holds of operands and is kept by operators holds of expressions. -/
theorem expression_satisfies
    (hoperand : ∀ expr : SubParser, expr.Satisfies P → ∀ c e c',
      operand expr c.peek c.skip = .ok (e, c') → P c e c')
    (hoperator : ∀ expr : SubParser, expr.Satisfies P → ∀ c₀ left c e c', P c₀ left c →
      operator expr c.peek left c.skip = .ok (e, c') → P c₀ e c')
    (depth : Nat) : SubParser.Satisfies P (expression depth) := by
  induction depth with
  | zero =>
    intro power c e c' h
    cases h
  | succ depth ih =>
    intro power c e c' h
    rw [expression] at h
    obtain ⟨⟨left, c₁⟩, hleft, h⟩ := Except.bind_eq_ok.mp h
    exact extend_satisfies (hoperator _ ih) power _ (hoperand _ ih _ _ _ hleft) h

end Induction

/-! ### Tokens that are left -/

/-- Neither a field nor a chain nor a flattening. -/
def Expr.isComposite : Expr → Bool
  | .field _ => false
  | .sub _ => false
  | .flatten _ => false
  | _ => true

/-- Nothing is put back. -/
def Drops (c : Cursor) (_ : Expr) (c' : Cursor) : Prop := c'.tokens <:+ c.tokens

theorem skip_suffix (c : Cursor) : c.skip.tokens <:+ c.tokens := List.tail_suffix _

theorem closeBracket_eq_ok {c c' : Cursor} (h : closeBracket c = .ok c') : c' = c.skip := by
  unfold closeBracket at h
  split at h <;> cases h
  rfl

theorem closeParen_eq_ok {c c' : Cursor} (h : closeParen c = .ok c') : c' = c.skip := by
  unfold closeParen at h
  split at h <;> cases h
  rfl

theorem sliceParts_suffix {ts rest : List Token} {place : Nat}
    {parts parts' : Option Int × Option Int × Option Int}
    (h : sliceParts ts place parts = .ok (parts', rest)) : rest <:+ ts := by
  fun_induction sliceParts ts place parts with
  | case1 =>
    cases h
    exact List.suffix_cons _ _
  | case2 => cases h
  | case3 _ _ _ _ ih | case4 _ _ _ _ _ _ ih => exact (ih h).trans (List.suffix_cons _ _)
  | case5 => cases h

theorem indexOrSlice_drops {c c' : Cursor} {e : Expr} (h : indexOrSlice c = .ok (e, c')) :
    Drops c e c' := by
  unfold indexOrSlice at h
  split at h
  · next n rest ht =>
    cases h
    exact ⟨[.number n, .rbracket], ht.symm⟩
  case h_2 | h_3 =>
    obtain ⟨⟨⟨a, b, s⟩, rest⟩, hparts, h⟩ := Except.bind_eq_ok.mp h
    cases h
    exact sliceParts_suffix hparts
  · cases h

section Parts

variable {expr : SubParser} (hexpr : expr.Satisfies Drops)
include hexpr

theorem arguments_suffix {steps : Nat} {c c' : Cursor} {es : List Expr}
    (h : arguments expr steps c = .ok (es, c')) : c'.tokens <:+ c.tokens := by
  induction steps generalizing c es with
  | zero => cases h
  | succ steps ih =>
    rw [arguments] at h
    split at h
    · cases h
      exact skip_suffix c
    · obtain ⟨⟨e, c₁⟩, he, h⟩ := Except.bind_eq_ok.mp h
      obtain ⟨⟨es, c₂⟩, hes, h⟩ := Except.bind_eq_ok.mp h
      cases h
      refine (ih hes).trans (List.IsSuffix.trans ?_ (hexpr _ _ _ _ he))
      split
      · exact skip_suffix c₁
      · exact List.suffix_rfl

theorem listItems_suffix {steps : Nat} {c c' : Cursor} {es : List Expr}
    (h : listItems expr steps c = .ok (es, c')) : c'.tokens <:+ c.tokens := by
  induction steps generalizing c es with
  | zero => cases h
  | succ steps ih =>
    rw [listItems] at h
    obtain ⟨⟨e, c₁⟩, he, h⟩ := Except.bind_eq_ok.mp h
    have hdrops : c₁.skip.tokens <:+ c.tokens := (skip_suffix c₁).trans (hexpr _ _ _ _ he)
    simp only at h
    split at h
    · cases h
      exact hdrops
    · obtain ⟨⟨es, c₂⟩, hes, h⟩ := Except.bind_eq_ok.mp h
      cases h
      exact (ih hes).trans hdrops
    · cases h

theorem hashFields_suffix {steps : Nat} {c c' : Cursor} {fs : List (String × Expr)}
    (h : hashFields expr steps c = .ok (fs, c')) : c'.tokens <:+ c.tokens := by
  induction steps generalizing c fs with
  | zero => cases h
  | succ steps ih =>
    rw [hashFields] at h
    split at h
    · obtain ⟨⟨e, c₁⟩, he, h⟩ := Except.bind_eq_ok.mp h
      have hdrops : c₁.tokens <:+ c.tokens :=
        (hexpr _ _ _ _ he).trans ((skip_suffix _).trans (skip_suffix c))
      simp only at h
      split at h
      · cases h
        exact (skip_suffix c₁).trans hdrops
      all_goals
        obtain ⟨⟨fs, c₂⟩, hfs, h⟩ := Except.bind_eq_ok.mp h
        cases h
      · exact (ih hfs).trans ((skip_suffix c₁).trans hdrops)
      · exact (ih hfs).trans hdrops
    · cases h

theorem listRight_composite {c c' : Cursor} {e : Expr} (h : listRight expr c = .ok (e, c')) :
    e.isComposite = true ∧ c'.tokens <:+ c.tokens := by
  obtain ⟨⟨es, c₁⟩, hes, h⟩ := Except.bind_eq_ok.mp h
  cases h
  exact ⟨rfl, listItems_suffix hexpr hes⟩

theorem hashRight_composite {c c' : Cursor} {e : Expr} (h : hashRight expr c = .ok (e, c')) :
    e.isComposite = true ∧ c'.tokens <:+ c.tokens := by
  obtain ⟨⟨fs, c₁⟩, hfs, h⟩ := Except.bind_eq_ok.mp h
  cases h
  exact ⟨rfl, hashFields_suffix hexpr hfs⟩

/-- Behind a dot stands something composite or an expression. -/
theorem dotRight_cases {power : Nat} {c c' : Cursor} {e : Expr}
    (h : dotRight expr power c = .ok (e, c')) :
    c'.tokens <:+ c.tokens ∧ (e.isComposite = true ∨ expr power c = .ok (e, c')) := by
  unfold dotRight at h
  split at h
  case h_1 | h_2 | h_3 => exact ⟨hexpr _ _ _ _ h, .inr h⟩
  · obtain ⟨he, hdrops⟩ := listRight_composite hexpr h
    exact ⟨hdrops.trans (skip_suffix c), .inl he⟩
  · obtain ⟨he, hdrops⟩ := hashRight_composite hexpr h
    exact ⟨hdrops.trans (skip_suffix c), .inl he⟩
  · cases h

theorem projectionRight_drops {power : Nat} {c c' : Cursor} {e : Expr}
    (h : projectionRight expr power c = .ok (e, c')) : Drops c e c' := by
  unfold projectionRight at h
  split_ifs at h
  · cases h
    exact List.suffix_rfl
  · split at h
    case h_1 | h_2 => exact hexpr _ _ _ _ h
    · exact (dotRight_cases hexpr h).1.trans (skip_suffix c)
    · cases h

/-- What is built with the right hand side of a projection. -/
theorem projection_composite {power : Nat} {build : Expr → Expr} {c c' : Cursor} {e : Expr}
    (hbuild : ∀ right, (build right).isComposite = true)
    (h : (projectionRight expr power c >>= fun x => pure (build x.1, x.2)) = .ok (e, c')) :
    e.isComposite = true ∧ c'.tokens <:+ c.tokens := by
  obtain ⟨⟨right, c₁⟩, hright, h⟩ := Except.bind_eq_ok.mp h
  cases h
  exact ⟨hbuild right, projectionRight_drops hexpr hright⟩

theorem filterRight_composite {left : Expr} {c c' : Cursor} {e : Expr}
    (h : filterRight expr left c = .ok (e, c')) : e.isComposite = true ∧ c'.tokens <:+ c.tokens := by
  obtain ⟨⟨condition, c₁⟩, he, h⟩ := Except.bind_eq_ok.mp h
  obtain ⟨c₂, hclose, h⟩ := Except.bind_eq_ok.mp h
  obtain rfl := closeBracket_eq_ok hclose
  have hdrops : c₁.skip.tokens <:+ c.tokens := (skip_suffix c₁).trans (hexpr _ _ _ _ he)
  simp only at h
  split at h
  · cases h
    exact ⟨rfl, hdrops⟩
  · obtain ⟨hcomposite, hright⟩ := projection_composite hexpr (fun _ => rfl) h
    exact ⟨hcomposite, hright.trans hdrops⟩

theorem indexedRight_composite {left part : Expr} {c c' : Cursor} {e : Expr}
    (h : indexedRight expr left part c = .ok (e, c')) :
    e.isComposite = true ∧ c'.tokens <:+ c.tokens := by
  unfold indexedRight at h
  split at h
  · exact projection_composite hexpr (fun _ => rfl) h
  · cases h
    exact ⟨rfl, List.suffix_rfl⟩

theorem binary_composite {t : Token} {build : Expr → Expr} {c c' : Cursor} {e : Expr}
    (hbuild : ∀ right, (build right).isComposite = true) (h : binary expr t build c = .ok (e, c')) :
    e.isComposite = true ∧ c'.tokens <:+ c.tokens := by
  obtain ⟨⟨right, c₁⟩, hright, h⟩ := Except.bind_eq_ok.mp h
  cases h
  exact ⟨hbuild right, hexpr _ _ _ _ hright⟩

/-! ### Operands and operators -/

/-- An operand is a field, a group in parentheses or composite. -/
theorem operand_cases {t : Token} {c c' : Cursor} {e : Expr} (h : operand expr t c = .ok (e, c')) :
    (∃ s, (t = .identifier s ∨ t = .quoted s) ∧ e = .field s ∧ c' = c) ∨
      (∃ c₁, expr 0 c = .ok (e, c₁) ∧ c' = c₁.skip) ∨
        e.isComposite = true ∧ c'.tokens <:+ c.tokens := by
  unfold operand at h
  split at h
  case h_1 v =>
    cases h
    exact .inr (.inr ⟨rfl, List.suffix_rfl⟩)
  case h_2 s =>
    cases h
    exact .inl ⟨s, .inl rfl, rfl, rfl⟩
  case h_3 s =>
    split at h <;> cases h
    exact .inl ⟨s, .inr rfl, rfl, rfl⟩
  case h_4 =>
    split at h
    · cases h
      exact .inr (.inr ⟨rfl, List.suffix_rfl⟩)
    · exact .inr (.inr (projection_composite hexpr (fun _ => rfl) h))
  case h_5 => exact .inr (.inr (filterRight_composite hexpr h))
  case h_6 => exact .inr (.inr (hashRight_composite hexpr h))
  case h_7 =>
    obtain ⟨⟨e', c₁⟩, he, h⟩ := Except.bind_eq_ok.mp h
    obtain ⟨c₂, hclose, h⟩ := Except.bind_eq_ok.mp h
    cases h
    exact .inr (.inl ⟨c₁, he, closeParen_eq_ok hclose⟩)
  case h_8 => exact .inr (.inr (projection_composite hexpr (fun _ => rfl) h))
  case h_9 =>
    obtain ⟨⟨e', c₁⟩, he, h⟩ := Except.bind_eq_ok.mp h
    cases h
    exact .inr (.inr ⟨rfl, hexpr _ _ _ _ he⟩)
  case h_10 =>
    split at h
    case h_1 | h_2 =>
      obtain ⟨⟨part, c₁⟩, hpart, h⟩ := Except.bind_eq_ok.mp h
      obtain ⟨hcomposite, hdrops⟩ := indexedRight_composite hexpr h
      exact .inr (.inr ⟨hcomposite, hdrops.trans (indexOrSlice_drops hpart)⟩)
    · obtain ⟨hcomposite, hdrops⟩ := projection_composite hexpr (fun _ => rfl) h
      exact .inr (.inr ⟨hcomposite, hdrops.trans ((skip_suffix _).trans (skip_suffix c))⟩)
    · exact .inr (.inr (listRight_composite hexpr h))
  case h_11 =>
    cases h
    exact .inr (.inr ⟨rfl, List.suffix_rfl⟩)
  case h_12 =>
    obtain ⟨⟨e', c₁⟩, he, h⟩ := Except.bind_eq_ok.mp h
    have hdrops : c₁.tokens <:+ c.tokens := hexpr _ _ _ _ he
    cases h
    exact .inr (.inr ⟨rfl, hdrops⟩)
  case h_13 => cases h

/-- An operator makes a chain, or something composite. -/
theorem operator_cases {t : Token} {left : Expr} {c c' : Cursor} {e : Expr}
    (h : operator expr t left c = .ok (e, c')) :
    (t = .dot ∧ ∃ right, dotRight expr dotPower c = .ok (right, c') ∧ e = appendSub left right) ∨
      e.isComposite = true ∧ c'.tokens <:+ c.tokens := by
  unfold operator at h
  split at h
  case h_1 =>
    split at h
    · obtain ⟨hcomposite, hdrops⟩ := projection_composite hexpr (fun _ => rfl) h
      exact .inr ⟨hcomposite, hdrops.trans (skip_suffix c)⟩
    · obtain ⟨⟨right, c₁⟩, hright, h⟩ := Except.bind_eq_ok.mp h
      cases h
      exact .inl ⟨rfl, right, hright, rfl⟩
  case h_2 | h_3 | h_4 | h_5 => exact .inr (binary_composite hexpr (fun _ => rfl) h)
  case h_6 =>
    split at h
    · obtain ⟨⟨args, c₁⟩, hargs, h⟩ := Except.bind_eq_ok.mp h
      cases h
      exact .inr ⟨rfl, arguments_suffix hexpr hargs⟩
    · cases h
  case h_7 => exact .inr (filterRight_composite hexpr h)
  case h_8 => exact .inr (projection_composite hexpr (fun _ => rfl) h)
  case h_9 =>
    split at h
    case h_1 | h_2 =>
      obtain ⟨⟨part, c₁⟩, hpart, h⟩ := Except.bind_eq_ok.mp h
      have hdrops : c₁.tokens <:+ c.tokens := indexOrSlice_drops hpart
      simp only at h
      split at h
      · cases h
        exact .inr ⟨rfl, hdrops⟩
      · obtain ⟨hcomposite, hright⟩ := indexedRight_composite hexpr h
        exact .inr ⟨hcomposite, hright.trans hdrops⟩
    · obtain ⟨hcomposite, hdrops⟩ := projection_composite hexpr (fun _ => rfl) h
      exact .inr ⟨hcomposite, hdrops.trans ((skip_suffix _).trans (skip_suffix c))⟩
    · cases h
  case h_10 => cases h

end Parts

/-! ### Expressions -/

section Cases

variable {P : Cursor → Expr → Cursor → Prop}

/-- What holds of fields and of everything composite, and is kept in parentheses and by dots, holds of
expressions. No expression puts tokens back. -/
theorem expression_induction
    (hfield : ∀ c s, c.peek = .identifier s ∨ c.peek = .quoted s → P c (.field s) c.skip)
    (hgroup : ∀ c e c', P c.skip e c' → P c e c'.skip)
    (hcomposite : ∀ c e c', e.isComposite = true → c'.tokens <:+ c.skip.tokens → P c e c')
    (hdot : ∀ c₀ left c right c', P c₀ left c → c.peek = .dot →
      (right.isComposite = true ∧ c'.tokens <:+ c.skip.tokens ∨ P c.skip right c') →
      P c₀ (appendSub left right) c')
    (hextend : ∀ c₀ left c e c', P c₀ left c → e.isComposite = true →
      c'.tokens <:+ c.skip.tokens → P c₀ e c')
    (depth : Nat) : SubParser.Satisfies P (expression depth) := by
  have hboth : SubParser.Satisfies (fun c e c' => Drops c e c' ∧ P c e c') (expression depth) := by
    refine expression_satisfies ?operand ?operator depth
    case operand =>
      intro expr hexpr c e c' h
      have hdrops : expr.Satisfies Drops := fun power c e c' h => (hexpr power c e c' h).1
      rcases operand_cases hdrops h with ⟨s, hs, rfl, rfl⟩ | ⟨c₁, he, rfl⟩ | ⟨he, hrest⟩
      · exact ⟨skip_suffix c, hfield c s hs⟩
      · obtain ⟨hrest, hinner⟩ := hexpr _ _ _ _ he
        exact ⟨(skip_suffix c₁).trans (hrest.trans (skip_suffix c)), hgroup c e c₁ hinner⟩
      · exact ⟨hrest.trans (skip_suffix c), hcomposite c e c' he hrest⟩
    case operator =>
      rintro expr hexpr c₀ left c e c' ⟨hdropped, hleft⟩ h
      have hdrops : expr.Satisfies Drops := fun power c e c' h => (hexpr power c e c' h).1
      rcases operator_cases hdrops h with ⟨ht, right, hright, rfl⟩ | ⟨he, hrest⟩
      · obtain ⟨hrest, hcases⟩ := dotRight_cases hdrops hright
        refine ⟨(hrest.trans (skip_suffix c)).trans hdropped, hdot c₀ left c right c' hleft ht ?_⟩
        exact hcases.imp (⟨·, hrest⟩) fun he => (hexpr _ _ _ _ he).2
      · exact ⟨(hrest.trans (skip_suffix c)).trans hdropped, hextend c₀ left c e c' hleft he hrest⟩
  exact fun power c e c' h => (hboth power c e c' h).2

end Cases

def Expr.isFlatten : Expr → Bool
  | .flatten _ => true
  | _ => false

theorem isFlatten_of_isComposite {e : Expr} (h : e.isComposite = true) : e.isFlatten = false := by
  cases e <;> first | rfl | cases h

theorem appendSub_isFlatten (left right : Expr) : (appendSub left right).isFlatten = false := by
  unfold appendSub
  split <;> rfl

/-- No expression is a bare flattening. -/
theorem expression_not_flatten (depth : Nat) :
    SubParser.Satisfies (fun _ e _ => e.isFlatten = false) (expression depth) :=
  expression_induction (fun _ _ _ => rfl) (fun _ _ _ h => h)
    (fun _ _ _ he _ => isFlatten_of_isComposite he)
    (fun _ left _ right _ _ _ _ => appendSub_isFlatten left right)
    (fun _ _ _ _ _ _ he _ => isFlatten_of_isComposite he) depth

end Reshape.JmesPath
