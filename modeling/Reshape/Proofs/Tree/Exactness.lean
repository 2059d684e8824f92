import Reshape.Proofs.Tree.Pruning

/-! Compiled trees are exact. The nodes of a tree, in the order of its walk, stand for the contributing
positions of the schema, in the order of the schema, one for one. Each has the path of its position,
the strategy of the position's directive, and children for those parts that contribute. -/

namespace Reshape.Tree

variable {r : Registry} {s : Settings}

/-- Children that stand for the contributing parts of a position. -/
inductive Shaped (keyword : String) (es : List (Key × Value)) : Children → Prop
  | leaf : (∀ x ∈ parts (.object es), contributes keyword x.2 = false) → Shaped keyword es .leaf
  | named {ps : List (Key × Value)} {nodes : List (Key × Node)} :
    Entries.find? (.text "properties") es = some (.object ps) → nodes ≠ [] →
    Entries.keys nodes = Entries.keys (ps.filter fun x => contributes keyword x.2) →
    Shaped keyword es (.named nodes)
  | indexed {vs : List Value} {slots : List (Option Node)} :
    hasProperties es = false → positional? es = some vs → slots.any Option.isSome = true →
    slots.map Option.isSome = vs.map (contributes keyword) → Shaped keyword es (.indexed slots)

/-- What a node has from the position that it stands for. -/
structure Renders (r : Registry) (s : Settings) (path : String) (es : List (Key × Value))
    (n : Node) : Prop where
  path : n.path = path
  strategy : ∃ d, Directs r s es d ∧ r.create d.family d.expression = .ok n.strategy
  children : Shaped s.keyword es n.children

/-- A node and a position at the same place, the one compiled from the other. -/
def Corresponds (r : Registry) (s : Settings) (path : String) (x : List Branch × Node)
    (y : List Branch × Value) : Prop :=
  x.1 = y.1 ∧ ∃ es, y.2 = .object es ∧ Renders r s (pathAlong path y.1) es x.2

theorem create_of_strategyAt {d : Directive} {path : String} {t : Strategy}
    (h : strategyAt r d path = .ok t) : r.create d.family d.expression = .ok t := by
  unfold strategyAt at h
  split_ifs at h
  split at h
  · cases h
  · exact h

/-! ### Children -/

theorem keys_filterMap_namedNode {keyword : String} {ps : List (Key × Value)}
    {ys : List (Branch × Option Node)}
    (h : List.Forall₂ (fun x y => y.2.isSome = contributes keyword x.2 ∧ .name x.1 = y.1) ps ys) :
    Entries.keys (ys.filterMap namedNode) =
      Entries.keys (ps.filter fun x => contributes keyword x.2) := by
  induction h with
  | nil => rfl
  | @cons x y ps ys hxy _ ih =>
    rcases x with ⟨k, v⟩
    rcases y with ⟨b, o⟩
    obtain ⟨hc, rfl⟩ := hxy
    cases o with
    | none =>
      have hv : contributes keyword v = false := hc.symm
      simpa [List.filterMap_cons, namedNode, hv] using ih
    | some n =>
      have hv : contributes keyword v = true := hc.symm
      simpa [List.filterMap_cons, namedNode, hv] using ih

theorem map_isSome_eq {keyword : String} {i : Nat} {vs : List Value}
    {ys : List (Branch × Option Node)}
    (h : List.Forall₂ (fun x y => y.2.isSome = contributes keyword x.2 ∧ x.1 = y.1)
      (slotsFrom i vs) ys) :
    (ys.map Prod.snd).map Option.isSome = vs.map (contributes keyword) := by
  induction vs generalizing i ys with
  | nil =>
    cases h
    rfl
  | cons v rest ih =>
    cases h with
    | cons hxy hrest => simp [hxy.1, ← ih hrest]

theorem shaped_of_compile {es : List (Key × Value)} {path : String}
    {ys : List (Branch × Option Node)}
    (h : compileParts r s path (parts (.object es)) = .ok ys) :
    Shaped s.keyword es (childrenOver es ys) := by
  have hparts := forall₂_of_compileParts h
  by_cases hleaf : childrenOver es ys = .leaf
  · rw [hleaf]
    exact .leaf ((eq_leaf_iff h).mp hleaf)
  · obtain ⟨x, hx, -⟩ := exists_part_of_ne_leaf h hleaf
    cases hp : hasProperties es with
    | true =>
      obtain ⟨ps, hps⟩ := members_of_part hp hx
      rw [parts_of_members hps, List.forall₂_map_left_iff] at hparts
      simp only [childrenOver, hp, if_true] at hleaf ⊢
      have hnodes : ys.filterMap namedNode ≠ [] := fun hn => hleaf (by rw [hn]; rfl)
      rw [namedChildren, if_neg (by simpa using hnodes)]
      exact .named hps hnodes (keys_filterMap_namedNode hparts)
    | false =>
      rw [parts_of_items hp] at hparts hx
      obtain ⟨vs, hvs⟩ : ∃ vs, positional? es = some vs := by
        cases hi : positional? es with
        | none => simp [hi, slotsFrom] at hx
        | some vs => exact ⟨vs, rfl⟩
      rw [hvs, Option.getD_some] at hparts
      simp only [childrenOver, hp, Bool.false_eq_true, if_false] at hleaf ⊢
      have hslots : ¬ (ys.map Prod.snd).all Option.isNone = true := fun hn =>
        hleaf (by rw [indexedChildren, if_pos hn])
      rw [indexedChildren, if_neg hslots]
      refine .indexed hp hvs ?_ (map_isSome_eq hparts)
      simpa [Option.isSome_iff_ne_none] using hslots

/-! ### Correspondence -/

theorem corresponds_below {path : String} {b : Branch} {x : List Branch × Node}
    {y : List Branch × Value} (h : Corresponds r s (b.extend path) x y) :
    Corresponds r s path (b :: x.1, x.2) (b :: y.1, y.2) :=
  ⟨congrArg (b :: ·) h.1, h.2⟩

/-- What corresponds part by part corresponds as a whole; parts without a node are pruned. -/
theorem corresponds_parts {path : String} {l : List (Branch × Value)}
    {ys : List (Branch × Option Node)}
    (h : List.Forall₂ (fun x y => compileNode r s x.2 (x.1.extend path) = .ok y.2 ∧ x.1 = y.1) l ys)
    (ih : ∀ x ∈ l, ∀ n, compileNode r s x.2 (x.1.extend path) = .ok (some n) →
      List.Forall₂ (Corresponds r s (x.1.extend path)) n.placed (contributing s.keyword x.2)) :
    List.Forall₂ (Corresponds r s path)
      ((ys.filterMap fun y => y.2.map (y.1, ·)).flatMap fun x =>
        x.2.placed.map fun y => (x.1 :: y.1, y.2))
      (l.flatMap fun x => (contributing s.keyword x.2).map fun y => (x.1 :: y.1, y.2)) := by
  induction h with
  | nil => exact .nil
  | @cons x y l ys hxy _ ihl =>
    obtain ⟨hx, hl⟩ := List.forall_mem_cons.mp ih
    have hrest := ihl hl
    rcases x with ⟨b, v⟩
    rcases y with ⟨b', o⟩
    obtain ⟨hc, rfl⟩ : compileNode r s v (b.extend path) = .ok o ∧ b = b' := hxy
    rw [List.flatMap_cons]
    cases o with
    | none =>
      have hpruned : contributing s.keyword v = [] :=
        contributing_eq_nil (isSome_of_compile hc).symm
      simpa [hpruned] using hrest
    | some n =>
      refine List.rel_append ?_ hrest
      rw [List.forall₂_map_left_iff, List.forall₂_map_right_iff]
      exact (hx n hc).imp fun _ _ => corresponds_below

/-- The nodes compiled from a position stand for what contributes at it and below it. -/
theorem corresponds_of_compile {v : Value} {path : String} {n : Node}
    (h : compileNode r s v path = .ok (some n)) :
    List.Forall₂ (Corresponds r s path) n.placed (contributing s.keyword v) := by
  induction v using schemaBranching.ind generalizing path n with
  | h v ih =>
    have hv : contributes s.keyword v = true := (isSome_of_compile h).symm
    obtain ⟨es, d, ys, t, rfl, hd, hys, hne, ht, rfl⟩ := compileNode_eq_some h
    have hparts := compileParts_eq_ok.mpr hys
    have hdirects := directs_of_compile hd hparts hne
    have hroot : Corresponds r s path ([], .mk path t (childrenOver es ys)) ([], .object es) :=
      ⟨rfl, es, rfl, rfl, ⟨_, hdirects, create_of_strategyAt ht⟩, shaped_of_compile hparts⟩
    rw [Node.placed_eq, contributing_eq_cons hv, Node.children,
      filled_childrenOver (map_fst_eq (fun _ _ h => h.2) hys)]
    exact .cons hroot (corresponds_parts hys fun x hx n hn => ih x hx hn)

/-- Every node of a compiled tree has a strategy of the registry, or the absent one. -/
theorem strategy_of_compile {schema : Value} {root : Node} (h : compile schema r s = .ok root)
    {n : Node} (hn : n ∈ root.walk) :
    n.strategy = .absent ∨ ∃ family e, r.create family e = .ok n.strategy := by
  rcases compile_eq_ok h with hroot | ⟨-, rfl⟩
  · rw [← root.map_snd_placed] at hn
    obtain ⟨x, hx, rfl⟩ := List.mem_map.mp hn
    obtain ⟨y, -, -, es, -, hy⟩ := exists_of_forall₂ (corresponds_of_compile hroot).flip hx
    obtain ⟨d, -, hd⟩ := hy.strategy
    exact .inr ⟨_, _, hd⟩
  · obtain rfl : n = .mk rootPath .absent .leaf := by
      simpa [Node.walk, Node.walkChildren] using hn
    exact .inl rfl

/-! ### Whole schemas -/

/-- When a schema compiles, its nodes in the order of the walk stand for the contributing positions in
the order of the schema, one for one. A schema that binds nothing gives an absent root. -/
theorem compile_exact {schema : Value} {root : Node} (h : compile schema r s = .ok root) :
    (contributes s.keyword schema = false → root = .mk rootPath .absent .leaf) ∧
      (contributes s.keyword schema = true →
        List.Forall₂ (Corresponds r s rootPath) root.placed (contributing s.keyword schema)) ∧
      root.placed.map Prod.snd = root.walk ∧
      (schema.Keyed → (root.placed.map Prod.fst).Nodup) := by
  refine ⟨?pruned, ?kept, root.map_snd_placed, ?ways⟩
  case pruned =>
    intro hc
    rcases compile_eq_ok h with hroot | ⟨-, rfl⟩
    · simp [← isSome_of_compile hroot] at hc
    · rfl
  case kept =>
    intro hc
    rcases compile_eq_ok h with hroot | ⟨hnone, -⟩
    · exact corresponds_of_compile hroot
    · simp [← isSome_of_compile hnone] at hc
  case ways =>
    intro hk
    rcases compile_eq_ok h with hroot | ⟨-, rfl⟩
    · rw [map_fst_eq (fun _ _ h => h.1) (corresponds_of_compile hroot)]
      exact (nodup_positions hk).sublist (List.filter_sublist.map Prod.fst)
    · rw [Node.placed_eq]
      simp [Node.children, Children.filled]

/-- One of two items and one of two properties are pruned. -/
theorem compile_exact_items :
    let item := Node.mk "$.a[1]" .absent .leaf
    let seed := Node.mk "$.a" ⟨"slice", "2", none, .sequence 2⟩ (.indexed [none, some item])
    let root := Node.mk "$" .mapping (.named [("a", seed)])
    let schema := Value.object [("properties", .object
      [("a", .object [("items", .array [.bool true, .object [("bind", .text "nil:")]])]),
        ("b", .object [("type", .text "string")])])]
    compile schema .default {} = .ok root ∧
      List.Forall₂ (Corresponds .default {} rootPath) root.placed (contributing "bind" schema) ∧
      root.placed.map Prod.fst = [[], [.name "a"], [.name "a", .slot 1]] := by
  intro item seed root schema
  have h : compile schema .default {} = .ok root := rfl
  obtain ⟨hpruned, hkept, -, -⟩ := compile_exact h
  have hc : contributes "bind" schema = true := by
    by_contra hno
    exact absurd (hpruned (by simpa using hno)) (by simp [root])
  refine ⟨h, hkept hc, ?_⟩
  have hplaced : ∀ p t c, (Node.mk p t c).placed = ([], .mk p t c) ::
      c.filled.flatMap fun x => x.2.placed.map fun y => (x.1 :: y.1, y.2) :=
    fun p t c => Node.placed_eq (.mk p t c)
  simp [root, seed, item, hplaced, Children.filled, Children.filledFrom]

end Reshape.Tree
