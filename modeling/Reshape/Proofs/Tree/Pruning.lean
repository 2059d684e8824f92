import Reshape.Proofs.Tree.Compiled

/-! What is pruned. When compiling succeeds, a position gives a node exactly if it contributes; a
position whose parts give none has no children. The directive that a contributing position is compiled
by is its own, or the one that its keys stand for, and these always decide it. -/

namespace Reshape.Tree

variable {r : Registry} {s : Settings}

/-! ### Contributing positions -/

theorem childrenOver_eq_leaf_iff {es : List (Key × Value)} {ys : List (Branch × Option Node)}
    (h : (parts (.object es)).map Prod.fst = ys.map Prod.fst) :
    childrenOver es ys = .leaf ↔ ∀ y ∈ ys, y.2 = none := by
  have hfilled : childrenOver es ys = .leaf ↔ (childrenOver es ys).filled = [] := by
    unfold childrenOver
    split
    · rw [filled_namedChildren]
      cases ys.filterMap namedNode <;> simp [namedChildren]
    · refine ⟨fun h => by simp [h, Children.filled], fun h => ?_⟩
      rw [filled_indexedChildren, List.eq_nil_iff_forall_not_mem] at h
      rw [indexedChildren, if_pos]
      refine List.all_eq_true.mpr fun o ho => ?_
      obtain ⟨i, hi⟩ := List.getElem?_of_mem ho
      cases o with
      | none => rfl
      | some n => exact absurd (Children.mem_filledFrom.mpr ⟨i, rfl, hi⟩) (h (.slot (0 + i), n))
  rw [hfilled, filled_childrenOver h, List.filterMap_eq_nil_iff]
  simp

theorem isSome_directiveOf {es : List (Key × Value)} {path : String} {d : Option Directive}
    (h : directiveOf r s es path = .ok d) : d.isSome = holds s.keyword (.object es) := by
  unfold directiveOf at h
  split at h
  · next hf =>
    obtain rfl := Except.ok.inj h
    simp [holds, Entries.has, hf]
  · next hf =>
    obtain rfl := Except.ok.inj h
    simp [holds, Entries.has, hf]
  · cases h

theorem all_none_iff {keyword : String} {l : List (Branch × Value)} {ys : List (Branch × Option Node)}
    (h : List.Forall₂ (fun x y => y.2.isSome = contributes keyword x.2 ∧ x.1 = y.1) l ys) :
    (∀ y ∈ ys, y.2 = none) ↔ ∀ x ∈ l, contributes keyword x.2 = false := by
  induction h with
  | nil => simp
  | @cons x y l ys hxy _ ih =>
    have hhead : y.2 = none ↔ contributes keyword x.2 = false := by
      rw [← hxy.1]
      simp
    rw [List.forall_mem_cons, List.forall_mem_cons, ih, hhead]

/-- A position contributes if it has a directive, or children from the parts that contribute. -/
theorem contributes_iff_of_parts {es : List (Key × Value)} {path : String} {d : Option Directive}
    {ys : List (Branch × Option Node)} (hd : directiveOf r s es path = .ok d)
    (h : List.Forall₂ (fun x y => y.2.isSome = contributes s.keyword x.2 ∧ x.1 = y.1)
      (parts (.object es)) ys) :
    contributes s.keyword (.object es) = true ↔ d ≠ none ∨ childrenOver es ys ≠ .leaf := by
  have hleaf : childrenOver es ys ≠ .leaf ↔
      ∃ x ∈ parts (.object es), contributes s.keyword x.2 = true := by
    rw [ne_eq, childrenOver_eq_leaf_iff (map_fst_eq (fun _ _ h => h.2) h), all_none_iff h]
    simp
  rw [contributes_iff, ← isSome_directiveOf hd, hleaf, Option.isSome_iff_ne_none]

theorem isSome_of_assemble {es : List (Key × Value)} {path : String} {d : Option Directive}
    {c : Children} {o : Option Node} (h : assemble r path es d c = .ok o) :
    o.isSome = true ↔ d ≠ none ∨ c ≠ .leaf := by
  by_cases hne : d ≠ none ∨ c ≠ .leaf
  · rw [assemble_eq hne] at h
    cases ht : strategyAt r (d.getD (inferred es)) path with
    | error f => simp [ht, Except.map] at h
    | ok t =>
      obtain rfl : some (.mk path t c) = o := by simpa [ht, Except.map] using h
      simp [hne]
  · obtain ⟨rfl, rfl⟩ : d = none ∧ c = .leaf := by tauto
    obtain rfl := Except.ok.inj h
    simp

/-- A position gives a node exactly if it contributes. -/
theorem isSome_of_compile {v : Value} {path : String} {o : Option Node}
    (h : compileNode r s v path = .ok o) : o.isSome = contributes s.keyword v := by
  induction v using schemaBranching.ind generalizing path o with
  | h v ih =>
    cases v with
    | object es =>
      rw [compileNode_eq] at h
      obtain ⟨d, hd, h⟩ := Except.bind_eq_ok.mp h
      obtain ⟨ys, hys, h⟩ := Except.bind_eq_ok.mp h
      have hparts : List.Forall₂ (fun x y => y.2.isSome = contributes s.keyword x.2 ∧ x.1 = y.1)
          (parts (.object es)) ys :=
        ((List.forall₂_and_left _ _).mpr ⟨fun _ h => h, compileParts_eq_ok.mp hys⟩).imp
          fun x y hxy => ⟨ih x hxy.1 hxy.2.1, hxy.2.2⟩
      exact Bool.eq_iff_iff.mpr
        ((isSome_of_assemble h).trans (contributes_iff_of_parts hd hparts).symm)
    | _ =>
      obtain rfl : none = o := by simpa [compileNode] using h
      rw [Option.isSome_none, eq_comm, Bool.eq_false_iff, ne_eq, contributes_iff]
      simp [holds, parts]

/-- Compiled parts gave nodes exactly where they contribute. -/
theorem forall₂_of_compileParts {path : String} {l : List (Branch × Value)}
    {ys : List (Branch × Option Node)} (h : compileParts r s path l = .ok ys) :
    List.Forall₂ (fun x y => y.2.isSome = contributes s.keyword x.2 ∧ x.1 = y.1) l ys :=
  (compileParts_eq_ok.mp h).imp fun _ _ hxy => ⟨isSome_of_compile hxy.1, hxy.2⟩

/-- A position has no children exactly if no part of it contributes. -/
theorem eq_leaf_iff {es : List (Key × Value)} {path : String} {ys : List (Branch × Option Node)}
    (h : compileParts r s path (parts (.object es)) = .ok ys) :
    childrenOver es ys = .leaf ↔
      ∀ x ∈ parts (.object es), contributes s.keyword x.2 = false := by
  have hparts := forall₂_of_compileParts h
  rw [childrenOver_eq_leaf_iff (map_fst_eq (fun _ _ h => h.2) hparts), all_none_iff hparts]

theorem exists_part_of_ne_leaf {es : List (Key × Value)} {path : String}
    {ys : List (Branch × Option Node)}
    (h : compileParts r s path (parts (.object es)) = .ok ys) (hne : childrenOver es ys ≠ .leaf) :
    ∃ x ∈ parts (.object es), contributes s.keyword x.2 = true := by
  simpa [eq_leaf_iff h] using hne

/-- A position that does not contribute is pruned, and nothing at it or below it is refused. -/
theorem compileNode_of_barren {v : Value} (h : contributes s.keyword v = false) (path : String) :
    compileNode r s v path = .ok none := by
  induction v using schemaBranching.ind generalizing path with
  | h v ih =>
    cases v with
    | object es =>
      rw [Bool.eq_false_iff, ne_eq, contributes_iff, not_or] at h
      obtain ⟨hholds, hbelow⟩ := h
      have hbarren : ∀ x ∈ parts (.object es), contributes s.keyword x.2 = false :=
        fun x hx => Bool.eq_false_iff.mpr fun hc => hbelow ⟨x, hx, hc⟩
      have hfind : Entries.find? (.text s.keyword) es = none := by
        simpa [holds, Entries.has] using hholds
      have hdirective : directiveOf r s es path = .ok none := by simp only [directiveOf, hfind]
      obtain ⟨ys, hys⟩ : ∃ ys, compileParts r s path (parts (.object es)) = .ok ys := by
        refine Except.mapM_ok_iff.mpr fun x hx => ⟨(x.1, none), ?_⟩
        rw [ih x hx (hbarren x hx)]
        rfl
      have hleaf : childrenOver es ys = .leaf := (eq_leaf_iff hys).mpr hbarren
      rw [compileNode_eq, hdirective, hys, Except.ok_bind, Except.ok_bind, hleaf]
      rfl
    | _ => simp only [compileNode]

/-! ### Directives -/

/-- The directive that a position is compiled by: its own, or what its keys stand for. -/
inductive Directs (r : Registry) (s : Settings) (es : List (Key × Value)) : Directive → Prop
  | own {t : String} : Entries.find? (.text s.keyword) es = some (.text t) →
    Directs r s es (Directive.splitIn r t s.defaultFamily)
  | mapping : Entries.find? (.text s.keyword) es = none → hasProperties es = true →
    Directs r s es ⟨"map", ""⟩
  | sequence {vs : List Value} : Entries.find? (.text s.keyword) es = none →
    hasProperties es = false → positional? es = some vs →
    Directs r s es ⟨"slice", toString vs.length⟩

theorem inferred_of_part {es : List (Key × Value)} {x : Branch × Value}
    (hx : x ∈ parts (.object es)) :
    (hasProperties es = true ∧ inferred es = ⟨"map", ""⟩) ∨
      ∃ vs, hasProperties es = false ∧ positional? es = some vs ∧
        inferred es = ⟨"slice", toString vs.length⟩ := by
  cases hp : hasProperties es with
  | true => exact .inl ⟨rfl, by simp [inferred, hp]⟩
  | false =>
    rw [parts_of_items hp] at hx
    cases hi : positional? es with
    | none => simp [hi, slotsFrom] at hx
    | some vs => exact .inr ⟨vs, rfl, rfl, by simp [inferred, hp, itemCount?_eq, hi]⟩

theorem directs_inferred {es : List (Key × Value)} (hf : Entries.find? (.text s.keyword) es = none)
    {x : Branch × Value} (hx : x ∈ parts (.object es)) : Directs r s es (inferred es) := by
  rcases inferred_of_part hx with ⟨hp, hi⟩ | ⟨vs, hp, hv, hi⟩
  · simpa [hi] using .mapping hf hp
  · simpa [hi] using .sequence hf hp hv

/-- The family of a position is decided whenever it is looked up. -/
theorem directs_of_compile {es : List (Key × Value)} {path : String} {d : Option Directive}
    {ys : List (Branch × Option Node)} (hd : directiveOf r s es path = .ok d)
    (hys : compileParts r s path (parts (.object es)) = .ok ys)
    (h : d ≠ none ∨ childrenOver es ys ≠ .leaf) : Directs r s es (d.getD (inferred es)) := by
  unfold directiveOf at hd
  split at hd
  · next hf =>
    obtain rfl := Except.ok.inj hd
    obtain ⟨x, hx, -⟩ := exists_part_of_ne_leaf hys (h.resolve_left (by simp))
    exact directs_inferred hf hx
  · next hf =>
    obtain rfl := Except.ok.inj hd
    exact .own hf
  · cases hd

end Reshape.Tree
