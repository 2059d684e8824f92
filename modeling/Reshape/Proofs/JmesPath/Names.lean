import Reshape.Proofs.JmesPath.Chain
import Reshape.Proofs.JmesPath.Parsing
import Reshape.Proofs.Json.Plain
import Reshape.Proofs.Json.Readings
import Mathlib.Data.List.TakeWhile

/-! Texts that are read as the chain of the very words between their dots. Such words are names: each
character of a name has to be written, and what is no name can only be written in quotes, so that the
text of any other word is too short for it. -/

namespace Reshape

/-! ### Strings -/

namespace Json

/-- Each character of a string has to be written, and the closing quote too. -/
theorem readString_length {start : List Char} {high : Option Nat} {cs : List Char}
    {r : List Char × List Char} (h : readString start high cs = .ok r) :
    r.1.length + r.2.length < cs.length + high.toList.length := by
  fun_induction readString start high cs generalizing r
  case case1 | case3 | case4 | case10 | case11 | case13 => cases h
  case case2 high _ _ =>
    cases h
    cases high
    · simp +zetaDelta
    · simp +zetaDelta
      omega
  case case8 ih =>
    have := ih h
    simp at this ⊢
    omega
  case case5 ih | case6 ih | case7 ih | case9 ih =>
    obtain ⟨r', hr', h⟩ := Except.bind_eq_ok.mp h
    cases h
    have := ih hr'
    simp at this ⊢
    omega
  case case12 high _ _ _ _ _ _ _ ih | case14 high _ _ _ _ _ _ _ _ _ ih =>
    obtain ⟨r', hr', h⟩ := Except.bind_eq_ok.mp h
    cases h
    have := ih hr'
    cases high <;> simp +zetaDelta at this ⊢ <;> omega

theorem parseText_string_length {cs : List Char} {s : String}
    (h : parseText .nearest (String.ofList ('"' :: cs)) = .ok (.text s)) :
    s.length < cs.length := by
  have hchars : parseChars .nearest ('"' :: cs) = .ok (.text s) := by
    rw [parseText, String.toList_ofList] at h
    exact h
  obtain ⟨rest, hread⟩ := parseChars_eq_ok hchars
  have hskip : skip ('"' :: cs) = '"' :: cs := rfl
  rw [hskip, readValue] at hread
  obtain ⟨⟨t, more⟩, ht, hread⟩ := Except.bind_eq_ok.mp hread
  cases hread
  have := readString_length ht
  simp at this ⊢
  omega

end Json

namespace JmesPath

/-! ### Weights -/

/-- What it takes to write a name, with a quote if it needs quotes. -/
def nameWeight (k : String) : Nat := if isName k then k.length else k.length + 1

def Token.weight : Token → Nat
  | .identifier s => nameWeight s
  | .quoted s => s.length + 1
  | .dot => 1
  | _ => 0

/-- What it takes to write some tokens, of which only names and dots count. -/
def weight (ts : List Token) : Nat := (ts.map Token.weight).sum

def Expr.partWeight : Expr → Nat
  | .field k => nameWeight k
  | _ => 0

/-- What it takes to write a chain of fields, with dots between them. -/
def Expr.weight : Expr → Nat
  | .sub parts => (parts.map Expr.partWeight).sum + (parts.length - 1)
  | e => e.partWeight

theorem length_le_nameWeight (k : String) : k.length ≤ nameWeight k := by
  unfold nameWeight
  split_ifs <;> omega

theorem nameWeight_le (k : String) : nameWeight k ≤ k.length + 1 := by
  unfold nameWeight
  split_ifs <;> omega

theorem weight_of_isComposite {e : Expr} (h : e.isComposite = true) : e.weight = 0 := by
  cases e <;> first | rfl | cases h

theorem partWeight_le (e : Expr) : e.partWeight ≤ e.weight := by
  cases e <;> first | exact Nat.le_refl _ | exact Nat.zero_le _

theorem weight_sub (parts : List Expr) :
    (Expr.sub parts).weight = (parts.map Expr.partWeight).sum + (parts.length - 1) := rfl

theorem weight_appendSub_le (left right : Expr) :
    (appendSub left right).weight ≤ left.weight + 1 + right.weight := by
  have hright := partWeight_le right
  unfold appendSub
  split
  · next parts =>
    simp only [weight_sub, List.map_append, List.map_singleton, List.sum_append, List.sum_singleton,
      List.length_append, List.length_singleton]
    omega
  · have hleft := partWeight_le left
    simp [weight_sub]
    omega

theorem weight_chainOf (ks : List String) :
    (chainOf ks).weight = (ks.map nameWeight).sum + (ks.length - 1) := by
  match ks with
  | [] => rfl
  | [k] => simp [chainOf, Expr.weight, Expr.partWeight]
  | j :: k :: ks => simp [chainOf, Expr.weight, Expr.partWeight, Function.comp_def]

theorem weight_le_of_suffix {ts us : List Token} (h : ts <:+ us) : weight ts ≤ weight us := by
  obtain ⟨front, rfl⟩ := h
  simp [weight]

theorem weight_skip (c : Cursor) : weight c.tokens = c.peek.weight + weight c.skip.tokens := by
  obtain ⟨ts, table⟩ := c
  cases ts <;> simp [Cursor.peek, Cursor.skip, weight, Token.weight]

/-! ### Tokens -/

theorem upTo_length {delimiter : Char} {cs : List Char} {r : List Char × List Char}
    (h : upTo delimiter cs = some r) : r.1.length + r.2.length < cs.length := by
  fun_induction upTo delimiter cs generalizing r
  case case1 => cases h
  case case3 =>
    cases h
    simp
  case case2 ih | case4 ih =>
    obtain ⟨r', hr', rfl⟩ := Option.map_eq_some_iff.mp h
    have := ih hr'
    simp only [List.length_cons]
    omega

theorem quotedName_length {cs : List Char} {s : String} (h : quotedName cs = .ok s) :
    s.length ≤ cs.length := by
  obtain ⟨o, ho, h⟩ := Except.bind_eq_ok.mp h
  split at h
  · cases h
    unfold jsonLiteral? at ho
    split at ho <;> cases ho
    have := Json.parseText_string_length ‹_›
    rw [List.length_append, List.length_singleton] at this
    omega
  · cases h

theorem simple?_weight {c : Char} {t : Token} (h : simple? c = some t) : t.weight ≤ 1 := by
  unfold simple? at h
  split at h <;> cases h <;> decide

theorem numeral_weight {negative : Bool} {ds : List Char} {t : Token}
    (h : numeral negative ds = .ok t) : t.weight = 0 := by
  unfold numeral at h
  split_ifs at h <;> cases h <;> rfl

theorem nameWeight_of_isStart {c : Char} (h : isStart c = true) (cs : List Char) :
    nameWeight (String.ofList (c :: cs.takeWhile isInner)) = 1 + (cs.takeWhile isInner).length := by
  have hname : isName (String.ofList (c :: cs.takeWhile isInner)) = true :=
    isName_iff.mpr ⟨c, _, String.toList_ofList, h, fun d hd => List.mem_takeWhile_imp hd⟩
  rw [nameWeight, if_pos hname, String.length_ofList, List.length_cons, Nat.add_comm]

/-- A token is no heavier than its characters. -/
theorem next_weight {c : Char} {rest more : List Char} {t : Token} (h : next c rest = .ok (t, more)) :
    t.weight + more.length ≤ rest.length + 1 := by
  revert h
  fun_cases next c rest <;> intro h
  case case7 | case11 | case15 | case20 | case21 => cases h
  case case8 pick | case9 pick | case16 pick | case17 pick | case18 pick =>
    have hpicked := Except.ok.inj h
    simp only [pick] at hpicked
    split at hpicked
    · split_ifs at hpicked <;> cases hpicked <;> simp only [Token.weight, List.length_cons] <;> omega
    · cases hpicked
      simp [Token.weight]
  case case1 hsimple =>
    cases h
    have := simple?_weight hsimple
    omega
  case case2 hstart =>
    cases h
    have := congrArg List.length (List.takeWhile_append_dropWhile (p := isInner) (l := rest))
    rw [List.length_append] at this
    rw [Token.weight, nameWeight_of_isStart hstart]
    omega
  case case3 | case4 | case5 | case19 =>
    cases h
    simp only [Token.weight, List.length_cons]
    omega
  case case6 hupTo =>
    cases h
    have := upTo_length hupTo
    simp only [Token.weight] at this ⊢
    omega
  case case10 hupTo =>
    obtain ⟨v, -, h⟩ := Except.bind_eq_ok.mp h
    cases h
    have := upTo_length hupTo
    simp only [Token.weight] at this ⊢
    omega
  case case12 | case13 =>
    obtain ⟨u, hu, h⟩ := Except.bind_eq_ok.mp h
    cases h
    have := (List.dropWhile_suffix (p := Char.isDigit) (l := rest)).length_le
    rw [numeral_weight hu]
    omega
  case case14 hupTo =>
    obtain ⟨name, hname, h⟩ := Except.bind_eq_ok.mp h
    cases h
    have hlength := upTo_length hupTo
    have hname := quotedName_length hname
    simp only [Token.weight] at hlength ⊢
    omega

theorem scan_weight {fuel : Nat} {cs : List Char} {ts : List Token} (h : scan fuel cs = .ok ts) :
    weight ts ≤ cs.length := by
  fun_induction scan fuel cs generalizing ts
  case case1 | case2 =>
    cases h
    exact Nat.zero_le _
  case case3 ih => exact (ih h).trans (Nat.le_succ _)
  case case4 fuel c rest _ ih =>
    obtain ⟨⟨t, more⟩, hnext, h⟩ := Except.bind_eq_ok.mp h
    obtain ⟨ts, hts, h⟩ := Except.bind_eq_ok.mp h
    cases h
    have htoken := next_weight hnext
    have hrest := ih _ hts
    simp only [weight, List.map_cons, List.sum_cons, List.length_cons] at hrest ⊢
    omega

/-! ### Parsing -/

/-- What is read is no heavier than its tokens. -/
def Weighs (c : Cursor) (e : Expr) (c' : Cursor) : Prop :=
  e.weight + weight c'.tokens ≤ weight c.tokens

theorem expression_weighs (depth : Nat) : SubParser.Satisfies Weighs (expression depth) := by
  refine expression_induction ?field ?group ?composite ?dot ?extend depth
  case field =>
    intro c s ht
    have hskip := weight_skip c
    have hname : nameWeight s ≤ c.peek.weight := by
      rcases ht with ht | ht <;> rw [ht]
      · exact Nat.le_refl _
      · exact nameWeight_le s
    show nameWeight s + weight c.skip.tokens ≤ weight c.tokens
    omega
  case group =>
    intro c e c' (h : e.weight + weight c'.tokens ≤ weight c.skip.tokens)
    show e.weight + weight c'.skip.tokens ≤ weight c.tokens
    have hskip := weight_le_of_suffix (skip_suffix c)
    have hskip' := weight_le_of_suffix (skip_suffix c')
    omega
  case composite =>
    intro c e c' he hrest
    rw [Weighs, weight_of_isComposite he, Nat.zero_add]
    exact weight_le_of_suffix (hrest.trans (skip_suffix c))
  case dot =>
    intro c₀ left c right c' (hleft : left.weight + weight c.tokens ≤ weight c₀.tokens) ht hcases
    have hright : right.weight + weight c'.tokens ≤ weight c.skip.tokens := by
      rcases hcases with ⟨he, hrest⟩ | h
      · rw [weight_of_isComposite he, Nat.zero_add]
        exact weight_le_of_suffix hrest
      · exact h
    have hskip := weight_skip c
    have hdot : c.peek.weight = 1 := congrArg Token.weight ht
    have happend := weight_appendSub_le left right
    show (appendSub left right).weight + weight c'.tokens ≤ weight c₀.tokens
    omega
  case extend =>
    intro c₀ left c e c' (hleft : left.weight + weight c.tokens ≤ weight c₀.tokens) he hrest
    have hskip := weight_le_of_suffix (hrest.trans (skip_suffix c))
    rw [Weighs, weight_of_isComposite he]
    omega

/-! ### Chains -/

theorem length_chain {ks : List String} (hne : ks ≠ []) :
    (".".intercalate ks).length = (ks.map String.length).sum + (ks.length - 1) := by
  obtain ⟨k, ks, rfl⟩ := List.exists_cons_of_ne_nil hne
  rw [← String.length_toList, Text.toList_intercalate_cons rfl]
  simp [List.length_flatMap, List.sum_map_add, String.length_toList]
  omega

/-- A text is read as the chain of the words between its dots only if they are names. -/
theorem isName_of_parse {ks : List String} {table : List Expr}
    (h : parse (".".intercalate ks) = .ok ⟨chainOf ks, table⟩) {k : String} (hk : k ∈ ks) :
    isName k = true := by
  obtain ⟨ts, hts, h⟩ := Except.bind_eq_ok.mp h
  obtain ⟨⟨e, c⟩, he, h⟩ := Except.bind_eq_ok.mp h
  obtain rfl : e = chainOf ks := by
    simp only at h
    split at h
    · exact congrArg Query.root (Except.ok.inj h)
    · cases h
  have hread : (chainOf ks).weight ≤ weight ts := by
    have : (chainOf ks).weight + weight c.tokens ≤ weight ts := expression_weighs _ _ _ _ _ he
    omega
  have hwritten : weight ts ≤ (".".intercalate ks).length := by
    unfold tokens at hts
    split_ifs at hts
    rw [← String.length_toList]
    exact scan_weight hts
  rw [weight_chainOf] at hread
  rw [length_chain (List.ne_nil_of_mem hk)] at hwritten
  by_contra hname
  have hlt : (ks.map String.length).sum < (ks.map nameWeight).sum :=
    List.sum_lt_sum _ _ (fun j _ => length_le_nameWeight j)
      ⟨k, hk, by rw [nameWeight, if_neg hname]; exact Nat.lt_succ_self _⟩
  omega

end JmesPath

end Reshape
