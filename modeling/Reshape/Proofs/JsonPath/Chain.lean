import Reshape.JsonPath.Eval
import Reshape.Proofs.Outcome
import Reshape.Proofs.Text.Joined
import Reshape.Proofs.Value.Members

/-! Chains of names in JSONPath. The root and names, each behind a dot, are read as the members that
they name, each of the member before it, and evaluation finds where they lead. How deep a path is
nested grows with its length, so that a long chain cannot be evaluated at all. -/

namespace Reshape.JsonPath

/-- A member of the member before it, and so on from the root. -/
def chainOf (ks : List String) : Expr := ks.foldl (fun e k => .child e (.fields [k])) .root

theorem chainOf_concat (ks : List String) (k : String) :
    chainOf (ks ++ [k]) = .child (chainOf ks) (.fields [k]) := by
  simp [chainOf]

/-- A name that needs no quotes and is no operator. -/
def isName (k : String) : Bool :=
  match k.toList with
  | [] => false
  | c :: cs => isStart c && cs.all isInner && word k == .name k

theorem isName_iff {k : String} :
    isName k = true ↔ (∃ c cs, k.toList = c :: cs ∧ isStart c = true ∧ ∀ d ∈ cs, isInner d = true) ∧
      word k = .name k := by
  unfold isName
  split
  · next h => simp [h]
  · next c cs h => simp [h]

theorem toList_ne_nil_of_isName {k : String} (hk : isName k = true) : k.toList ≠ [] := by
  obtain ⟨⟨c, cs, hcs, -⟩, -⟩ := isName_iff.mp hk
  rw [hcs]
  exact List.cons_ne_nil c cs

/-! ### Tokens -/

theorem direction?_eq_none {c : Char} (hblank : Text.isBlank c = false) (hcomma : c ≠ ',')
    (hslash : c ≠ '/') (hback : c ≠ '\\') (rest : List Char) : direction? (c :: rest) = none := by
  unfold direction?
  split
  · next h => exact absurd (List.cons.inj h).1 hcomma
  · simp [hblank, hslash, hback]

theorem scan_cons {c : Char} {rest more : List Char} {t : Token} (hblank : Text.isBlank c = false)
    (hdirection : direction? (c :: rest) = none) (hnext : next c rest = some (t, more)) (fuel : Nat) :
    scan (fuel + 1) (c :: rest) = (scan fuel more).map (t :: ·) := by
  have hne : ∀ d, Text.isBlank d = true → c ≠ d := by
    rintro d hd rfl
    rw [hblank] at hd
    cases hd
  have hspace : (c == ' ' || c == '\t') = false := by
    simp [hne ' ' (by decide), hne '\t' (by decide)]
  have hline : (c == '\n') = false := by simp [hne '\n' (by decide)]
  rw [scan, hspace, if_neg Bool.false_ne_true, hdirection]
  simp only [hline, Bool.false_eq_true, if_false, hnext]
  cases h : scan fuel more <;> simp [h]

theorem toNat_of_isStart {c : Char} (h : isStart c = true) : 65 ≤ c.toNat ∧ c.toNat ≤ 122 := by
  rw [isStart, Bool.or_eq_true, beq_iff_eq] at h
  rcases h with h | rfl
  · have hcases : c.isUpper = true ∨ c.isLower = true := Bool.or_eq_true_iff.mp h
    rcases hcases with h | h
    · obtain ⟨hlo, hhi⟩ : 'A'.val ≤ c.val ∧ c.val ≤ 'Z'.val := of_decide_eq_true h
      exact ⟨UInt32.le_iff_toNat_le.mp hlo, (UInt32.le_iff_toNat_le.mp hhi).trans (by decide)⟩
    · obtain ⟨hlo, hhi⟩ : 'a'.val ≤ c.val ∧ c.val ≤ 'z'.val :=
        (Bool.and_eq_true_iff.mp h).imp of_decide_eq_true of_decide_eq_true
      exact ⟨(by decide : 65 ≤ 97).trans (UInt32.le_iff_toNat_le.mp hlo),
        UInt32.le_iff_toNat_le.mp hhi⟩
  · decide

theorem isBlank_of_isStart {c : Char} (h : isStart c = true) : Text.isBlank c = false := by
  have := toNat_of_isStart h
  simp [Text.isBlank, Text.isWhite, Text.inRanges, Text.whiteSpace]
  omega

theorem next_of_isStart {c : Char} (h : isStart c = true) (rest : List Char) :
    next c rest = some (word (String.ofList (c :: rest.takeWhile isInner)), rest.dropWhile isInner) := by
  unfold next
  exact if_pos h

/-- A name ends before what cannot be part of one. -/
theorem scan_name {k : String} (hk : isName k = true) {rest : List Char}
    (hrest : ∀ d, rest.head? = some d → isInner d = false) (fuel : Nat) :
    scan (fuel + 1) (k.toList ++ rest) = (scan fuel rest).map (.name k :: ·) := by
  obtain ⟨⟨c, cs, hcs, hc, hinner⟩, hword⟩ := isName_iff.mp hk
  have hnext : next c (cs ++ rest) = some (.name k, rest) := by
    rw [next_of_isStart hc, Text.takeWhile_append_of_stop hinner hrest,
      Text.dropWhile_append_of_stop hinner hrest, ← hcs, String.ofList_toList, hword]
  have hne : ∀ d, isStart d = false → c ≠ d := by
    rintro d hd rfl
    rw [hc] at hd
    cases hd
  have hblank := isBlank_of_isStart hc
  have hdirection := direction?_eq_none hblank (hne _ rfl) (hne _ rfl) (hne _ rfl) (cs ++ rest)
  rw [hcs, List.cons_append]
  exact scan_cons hblank hdirection hnext fuel

theorem scan_dot {c : Char} (hc : isStart c = true) (rest : List Char) (fuel : Nat) :
    scan (fuel + 1) ('.' :: c :: rest) = (scan fuel (c :: rest)).map (.dot :: ·) := by
  refine scan_cons (by decide) (direction?_eq_none (by decide) (by decide) (by decide) (by decide) _) ?_
    fuel
  have hne : c ≠ '.' := by
    rintro rfl
    cases hc
  have hdigit : isDigit '.' = false := by decide
  have hstart : isStart '.' = false := rfl
  simp [next, hstart, hdigit, hne]

/-- The tokens of names, each behind a dot. -/
def dotted (ks : List String) : List Token := ks.flatMap fun k => [.dot, .name k]

theorem scan_dotted {ks : List String} (hks : ∀ k ∈ ks, isName k = true) {fuel : Nat}
    (hfuel : 2 * ks.length ≤ fuel) :
    scan fuel (ks.flatMap fun k => '.' :: k.toList) = some (dotted ks) := by
  induction ks generalizing fuel with
  | nil => cases fuel <;> rfl
  | cons k ks ih =>
    obtain ⟨hk, hks⟩ := List.forall_mem_cons.mp hks
    obtain ⟨⟨c, cs, hcs, hc, -⟩, -⟩ := isName_iff.mp hk
    rw [List.length_cons] at hfuel
    obtain ⟨fuel, rfl⟩ : ∃ n, fuel = n + 2 := ⟨fuel - 2, by omega⟩
    have hstop : ∀ d, (ks.flatMap fun k => '.' :: k.toList).head? = some d → isInner d = false := by
      intro d hd
      obtain rfl := Text.head?_flatMap_cons hd
      rfl
    have hname := scan_name hk hstop fuel
    rw [List.flatMap_cons, List.cons_append, hcs, List.cons_append] at *
    rw [scan_dot hc, hname, ih hks (by omega)]
    rfl

theorem tokens_chain {ks : List String} (hne : ks ≠ []) (hks : ∀ k ∈ ks, isName k = true) :
    tokens ("$." ++ ".".intercalate ks) = some (.root :: dotted ks) := by
  have htext : ("$." ++ ".".intercalate ks).toList =
      '$' :: ks.flatMap fun k => '.' :: k.toList := by
    have hdots : '.' :: (".".intercalate ks).toList = ks.flatMap fun k => '.' :: k.toList :=
      Text.cons_toList_intercalate rfl hne
    rw [String.toList_append, ← hdots]
    rfl
  have hlength : ("$." ++ ".".intercalate ks).length =
      (ks.flatMap fun k => '.' :: k.toList).length + 1 := by
    rw [← String.length_toList, htext, List.length_cons]
  have hdirection : ∀ rest, direction? ('$' :: rest) = none := fun rest =>
    direction?_eq_none (by decide) (by decide) (by decide) (by decide) rest
  have hnext : ∀ rest, next '$' rest = some (.root, rest) := fun rest => by
    have hdigit : isDigit '$' = false := by decide
    have hstart : isStart '$' = false := rfl
    simp [next, hstart, hdigit, simple?]
  rw [tokens, htext, hlength, scan_cons (by decide) (hdirection _) (hnext _),
    scan_dotted hks (Text.two_mul_length_le fun k hk => toList_ne_nil_of_isName (hks k hk))]
  rfl

/-! ### Parsing -/

theorem climb_stop {p : PathParser} {steps power : Nat} {left : Expr} {ts : List Token}
    (h : ∀ t q, ts.head? = some t → power? t = some q → q ≤ power) :
    climb p (steps + 1) power left ts = some (left, ts) := by
  cases ts with
  | nil => rfl
  | cons t rest =>
    rw [climb]
    split
    · next q hq => rw [if_neg (Nat.not_lt.mpr (h t q rfl hq))]
    · rfl

theorem primary_name {p : PathParser} {k : String} {rest : List Token}
    (h : ∀ t, rest.head? = some t → t ≠ .comma) :
    primary p (.name k :: rest) = some (.fields [k], rest) := by
  have hmore : moreNames rest = ([], rest) := by
    unfold moreNames
    split
    · exact absurd rfl (h _ rfl)
    · rfl
  simp [primary, numberThenOperator?, number?, nameOf?, hmore]

/-- Each dot adds the name behind it to the chain. -/
theorem extend_dotted {p : PathParser} {steps : Nat} {js ks : List String}
    (hsteps : ks.length < steps) :
    extend p steps (chainOf js) (dotted ks) = some (chainOf (js ++ ks), []) := by
  induction ks generalizing js steps with
  | nil =>
    obtain ⟨steps, rfl⟩ : ∃ n, steps = n + 1 := ⟨steps - 1, by simp at hsteps; omega⟩
    rw [List.append_nil]
    rfl
  | cons k ks ih =>
    rw [List.length_cons] at hsteps
    obtain ⟨steps, rfl⟩ : ∃ n, steps = n + 1 := ⟨steps - 1, by omega⟩
    have hhead : ∀ t, (dotted ks).head? = some t → t = .dot := by
      intro t ht
      cases ks with
      | nil => cases ht
      | cons j ks => exact (Option.some.inj ht).symm
    have hprimary : primary p (.name k :: dotted ks) = some (.fields [k], dotted ks) :=
      primary_name fun t ht => by
        rw [hhead t ht]
        nofun
    have hclimb : climb p ((Token.name k :: dotted ks).length + 1) 2 (.fields [k]) (dotted ks) =
        some (.fields [k], dotted ks) :=
      climb_stop fun t q ht hq => by
        rw [hhead t ht] at hq
        cases hq
        exact Nat.le_refl 2
    have hrest : extend p steps (chainOf (js ++ [k])) (dotted ks) =
        some (chainOf (js ++ [k] ++ ks), []) := ih (Nat.lt_of_succ_lt_succ hsteps)
    rw [chainOf_concat, List.append_assoc] at hrest
    have hstep : extend p (steps + 1) (chainOf js) (dotted (k :: ks)) =
        (primary p (.name k :: dotted ks)).bind fun x =>
          (climb p ((Token.name k :: dotted ks).length + 1) 2 x.1 x.2).bind fun y =>
            extend p steps (.child (chainOf js) y.1) y.2 := rfl
    rw [hstep, hprimary, Option.bind_some, hclimb, Option.bind_some]
    exact hrest

/-- The root and names behind dots are read as a chain. -/
theorem parse_chain {ks : List String} (hne : ks ≠ []) (hks : ∀ k ∈ ks, isName k = true) :
    parse ("$." ++ ".".intercalate ks) = some (chainOf ks) := by
  have hlength : ks.length < (dotted ks).length + 1 := by
    simp [dotted]
    omega
  have hextend : ∀ p, extend p ((dotted ks).length + 1) (chainOf []) (dotted ks) =
      some (chainOf ([] ++ ks), []) := fun p => extend_dotted hlength
  have hpath : ∀ depth, (pathTo (depth + 1)).path (.root :: dotted ks) = some (chainOf ks, []) :=
    fun depth => hextend (pathTo depth)
  rw [parse, tokens_chain hne hks]
  simp only [List.length_cons, hpath]

/-! ### Evaluation -/

theorem findAll_fields (k : String) (ms : List Match) :
    findAll (fun m => (Expr.fields [k]).find (.match m)) ms =
      .ok (ms.flatMap fun m => m.fields [k]) := by
  induction ms with
  | nil => rfl
  | cons m ms ih =>
    rw [findAll, ih]
    rfl

theorem map_value_fields (k : String) (ms : List Match) :
    (ms.flatMap fun m => m.fields [k]).map (·.value) =
      (ms.map (·.value)).flatMap fun v => (v.get? k).toList := by
  rw [List.map_flatMap, List.flatMap_map]
  congr 1
  funext m
  cases h : m.value.get? k <;> simp [Match.fields, Match.inside, h]

/-- Evaluating a chain finds what its names lead to. -/
theorem find_chain (ks : List String) (v : Value) :
    ∃ ms, (chainOf ks).find (.document v) = .ok (.many ms) ∧
      ms.map (·.value) = (v.follow? ks).toList := by
  induction ks using List.reverseRecOn with
  | nil => exact ⟨[.alone v], rfl, rfl⟩
  | append_singleton ks k ih =>
    obtain ⟨ms, hms, hvalues⟩ := ih
    refine ⟨ms.flatMap fun m => m.fields [k], ?_, ?_⟩
    · rw [chainOf_concat, Expr.find, hms, Except.ok_bind, Result.list, Except.ok_bind, findAll_fields]
      rfl
    · rw [map_value_fields, hvalues, Value.follow?_concat]
      cases v.follow? ks <;> simp

theorem depth_chain {ks : List String} (hne : ks ≠ []) : (chainOf ks).depth = ks.length + 2 := by
  induction ks using List.reverseRecOn with
  | nil => exact absurd rfl hne
  | append_singleton ks k ih =>
    rw [chainOf_concat, Expr.depth, List.length_append, List.length_singleton]
    cases ks with
    | nil => rfl
    | cons j ks =>
      rw [ih (List.cons_ne_nil j ks)]
      simp [Expr.depth]

/-- A chain that is not too long gives what its names lead to. -/
theorem search_chain {ks : List String} (hne : ks ≠ []) (hshort : ks.length + 2 ≤ depthLimit)
    (v : Value) : (chainOf ks).search v = .ok (v.follow? ks).toList := by
  obtain ⟨ms, hms, hvalues⟩ := find_chain ks v
  rw [Expr.search, depth_chain hne, if_neg (Nat.not_lt.mpr hshort), hms, ← hvalues]
  rfl

/-- A chain that is too long cannot be evaluated. -/
theorem search_long {ks : List String} (hne : ks ≠ []) (hlong : depthLimit < ks.length + 2)
    (v : Value) : (chainOf ks).search v = .error (.crash .tooDeep) := by
  rw [Expr.search, depth_chain hne, if_pos hlong]

end Reshape.JsonPath
