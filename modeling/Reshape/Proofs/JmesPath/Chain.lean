import Reshape.JmesPath.Eval
import Reshape.Proofs.Outcome
import Reshape.Proofs.Text.Joined
import Reshape.Proofs.Value.Members

/-! Chains of names in JMESPath. Names with dots between them are read as the fields that they name,
each of the field before it, and evaluation follows them. -/

namespace Reshape.JmesPath

/-- A field of the field before it, and so on. -/
def chainOf : List String → Expr
  | [k] => .field k
  | ks => .sub (ks.map .field)

/-- A name that needs no quotes. -/
def isName (k : String) : Bool :=
  match k.toList with
  | [] => false
  | c :: cs => isStart c && cs.all isInner

theorem appendSub_chainOf {ks : List String} (hne : ks ≠ []) (k : String) :
    appendSub (chainOf ks) (.field k) = chainOf (ks ++ [k]) := by
  match ks, hne with
  | [_], _ => rfl
  | _ :: _ :: _, _ => simp [chainOf, appendSub]

/-! ### Tokens -/

theorem isName_iff {k : String} :
    isName k = true ↔ ∃ c cs, k.toList = c :: cs ∧ isStart c = true ∧ ∀ d ∈ cs, isInner d = true := by
  unfold isName
  split
  · next h => simp [h]
  · next c cs h => simp [h]

theorem toList_ne_nil_of_isName {k : String} (hk : isName k = true) : k.toList ≠ [] := by
  obtain ⟨c, cs, hcs, -⟩ := isName_iff.mp hk
  rw [hcs]
  exact List.cons_ne_nil c cs

theorem isSpace_of_isStart {c : Char} (h : isStart c = true) : Json.isSpace c = false := by
  rw [Bool.eq_false_iff]
  intro hc
  simp only [Json.isSpace, Bool.or_eq_true, beq_iff_eq] at hc
  rcases hc with ((rfl | rfl) | rfl) | rfl <;> cases h

theorem next_of_isStart {c : Char} (h : isStart c = true) (rest : List Char) :
    next c rest = .ok (.identifier (String.ofList (c :: rest.takeWhile isInner)),
      rest.dropWhile isInner) := by
  have hsimple : simple? c = none := by
    unfold simple?
    split <;> first | rfl | cases h
  simp only [next, hsimple, h, if_true]

theorem scan_cons {c : Char} {rest more : List Char} {t : Token} (hc : Json.isSpace c = false)
    (hnext : next c rest = .ok (t, more)) (fuel : Nat) :
    scan (fuel + 1) (c :: rest) = (scan fuel more).map (t :: ·) := by
  rw [scan, hc, if_neg Bool.false_ne_true, hnext]
  cases h : scan fuel more <;> simp [h, Except.map, pure, Except.pure]

/-- A name ends before what cannot be part of one. -/
theorem scan_name {k : String} (hk : isName k = true) {rest : List Char}
    (hrest : ∀ d, rest.head? = some d → isInner d = false) (fuel : Nat) :
    scan (fuel + 1) (k.toList ++ rest) = (scan fuel rest).map (.identifier k :: ·) := by
  obtain ⟨c, cs, hcs, hc, hinner⟩ := isName_iff.mp hk
  have hnext := next_of_isStart hc (cs ++ rest)
  rw [Text.takeWhile_append_of_stop hinner hrest, Text.dropWhile_append_of_stop hinner hrest, ← hcs,
    String.ofList_toList] at hnext
  rw [hcs, List.cons_append]
  exact scan_cons (isSpace_of_isStart hc) hnext fuel

/-- The tokens of names, each behind a dot. -/
def dotted (ks : List String) : List Token := ks.flatMap fun k => [.dot, .identifier k]

theorem scan_dotted {ks : List String} (hks : ∀ k ∈ ks, isName k = true) {fuel : Nat}
    (hfuel : 2 * ks.length ≤ fuel) :
    scan fuel (ks.flatMap fun k => '.' :: k.toList) = .ok (dotted ks ++ [.finish]) := by
  induction ks generalizing fuel with
  | nil => cases fuel <;> rfl
  | cons k ks ih =>
    obtain ⟨hk, hks⟩ := List.forall_mem_cons.mp hks
    rw [List.length_cons] at hfuel
    obtain ⟨fuel, rfl⟩ : ∃ n, fuel = n + 2 := ⟨fuel - 2, by omega⟩
    have hstop : ∀ d, (ks.flatMap fun k => '.' :: k.toList).head? = some d → isInner d = false := by
      intro d hd
      obtain rfl := Text.head?_flatMap_cons hd
      rfl
    rw [List.flatMap_cons, List.cons_append, scan_cons (by rfl) (by rfl), scan_name hk hstop,
      ih hks (by omega)]
    rfl

theorem tokens_chain {k : String} {ks : List String} (hks : ∀ j ∈ k :: ks, isName j = true) :
    tokens (".".intercalate (k :: ks)) = .ok (.identifier k :: (dotted ks ++ [.finish])) := by
  obtain ⟨hk, hks⟩ := List.forall_mem_cons.mp hks
  obtain ⟨c, cs, hcs, -⟩ := isName_iff.mp hk
  have htext : (".".intercalate (k :: ks)).toList =
      k.toList ++ ks.flatMap fun j => '.' :: j.toList := Text.toList_intercalate_cons rfl k ks
  have hempty : (".".intercalate (k :: ks)).isEmpty = false := by
    simp [← String.toList_inj, htext, hcs]
  obtain ⟨fuel, hlength⟩ : ∃ n, (".".intercalate (k :: ks)).length = n + 1 := by
    rw [← String.length_toList, htext, hcs]
    exact ⟨_, rfl⟩
  have hfuel : 2 * ks.length ≤ fuel := by
    have hle : 2 * ks.length ≤ (ks.flatMap fun j => '.' :: j.toList).length :=
      Text.two_mul_length_le fun j hj => toList_ne_nil_of_isName (hks j hj)
    rw [← String.length_toList, htext, hcs, List.length_append, List.length_cons] at hlength
    omega
  have hstop : ∀ d, (ks.flatMap fun j => '.' :: j.toList).head? = some d → isInner d = false := by
    intro d hd
    obtain rfl := Text.head?_flatMap_cons hd
    rfl
  rw [tokens, hempty, if_neg Bool.false_ne_true, hlength, htext, scan_name hk hstop,
    scan_dotted hks hfuel]
  rfl

/-! ### Parsing -/

theorem extend_stop {expr : SubParser} {power steps : Nat} {left : Expr} {c : Cursor}
    (h : c.peek.power ≤ power) : extend expr power steps left c = .ok (left, c) := by
  cases steps with
  | zero => rfl
  | succ steps => rw [extend, if_neg (Nat.not_lt.mpr h)]

theorem expression_name {depth power : Nat} {k : String} {rest : List Token} {table : List Expr}
    (h : (Cursor.mk rest table).peek.power ≤ power) :
    expression (depth + 1) power ⟨.identifier k :: rest, table⟩ = .ok (.field k, ⟨rest, table⟩) := by
  rw [expression]
  exact extend_stop h

/-- Each dot adds the name behind it to the chain. -/
theorem extend_dotted {depth steps : Nat} {js ks : List String} {table : List Expr} (hjs : js ≠ [])
    (hsteps : ks.length ≤ steps) :
    extend (expression (depth + 1)) 0 steps (chainOf js) ⟨dotted ks ++ [.finish], table⟩ =
      .ok (chainOf (js ++ ks), ⟨[.finish], table⟩) := by
  induction ks generalizing js steps with
  | nil =>
    rw [List.append_nil]
    exact extend_stop (Nat.le_refl 0)
  | cons k ks ih =>
    rw [List.length_cons] at hsteps
    obtain ⟨steps, rfl⟩ : ∃ n, steps = n + 1 := ⟨steps - 1, by omega⟩
    have hpower : (Cursor.mk (dotted ks ++ [.finish]) table).peek.power ≤ dotPower := by
      cases ks with
      | nil => exact Nat.zero_le _
      | cons k ks => exact Nat.le_refl _
    have hright : expression (depth + 1) dotPower
        ⟨.identifier k :: (dotted ks ++ [.finish]), table⟩ =
          .ok (.field k, ⟨dotted ks ++ [.finish], table⟩) := expression_name hpower
    have hstep : operator (expression (depth + 1)) .dot (chainOf js)
        ⟨.identifier k :: (dotted ks ++ [.finish]), table⟩ =
          .ok (chainOf (js ++ [k]), ⟨dotted ks ++ [.finish], table⟩) := by
      simp only [operator, Cursor.peek, List.headD_cons, dotRight, hright, Except.ok_bind,
        appendSub_chainOf hjs]
      rfl
    have hpeek : (Cursor.mk (dotted (k :: ks) ++ [.finish]) table).peek = .dot := rfl
    have hskip : (Cursor.mk (dotted (k :: ks) ++ [.finish]) table).skip =
        ⟨.identifier k :: (dotted ks ++ [.finish]), table⟩ := rfl
    have hrest := ih (List.append_ne_nil_of_left_ne_nil hjs [k]) (Nat.le_of_succ_le_succ hsteps)
    rw [List.append_assoc] at hrest
    rw [extend, hpeek, if_pos (by decide), hskip, hstep]
    exact hrest

/-- Names with dots between them are read as a chain. -/
theorem parse_chain {ks : List String} (hne : ks ≠ []) (hks : ∀ k ∈ ks, isName k = true) :
    parse (".".intercalate ks) = .ok ⟨chainOf ks, []⟩ := by
  obtain ⟨k, ks, rfl⟩ := List.exists_cons_of_ne_nil hne
  have hchain : expression nestingLimit 0 ⟨.identifier k :: (dotted ks ++ [.finish]), []⟩ =
      .ok (chainOf (k :: ks), ⟨[.finish], []⟩) := by
    refine extend_dotted (List.cons_ne_nil k []) ?_
    show ks.length ≤ (dotted ks ++ [Token.finish]).length
    simp [dotted]
    omega
  rw [parse, tokens_chain hks, Except.ok_bind, hchain]
  rfl

/-! ### Evaluation -/

theorem chain_fields {visit : Expr → Value → Result}
    (hvisit : ∀ k v, visit (.field k) v = .ok (field k v)) (ks : List String) (v : Value) :
    chain visit (ks.map .field) v = .ok ((v.follow? ks).getD .null) := by
  induction ks generalizing v with
  | nil => rfl
  | cons k ks ih =>
    rw [List.map_cons, chain, hvisit, Except.ok_bind, ih, Value.follow?, field]
    cases v.get? k with
    | none => exact congrArg _ (Value.follow?_null ks)
    | some w => rfl

/-- A chain evaluates to what its names lead to, or to null. -/
theorem search_chain {ks : List String} (hne : ks ≠ []) (v : Value) :
    Query.search ⟨chainOf ks, []⟩ v = .ok ((v.follow? ks).getD .null) := by
  match ks, hne with
  | [k], _ =>
    have hsearch : Query.search ⟨chainOf [k], []⟩ v = .ok (field k v) := rfl
    rw [hsearch, field, Value.follow?]
    cases v.get? k <;> rfl
  | j :: k :: ks, _ => exact chain_fields (fun _ _ => rfl) (j :: k :: ks) v

theorem chainOf_projects (ks : List String) : (chainOf ks).projects = false := by
  unfold chainOf
  split <;> rfl

end Reshape.JmesPath
