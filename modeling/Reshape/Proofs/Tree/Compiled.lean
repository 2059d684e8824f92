import Reshape.Proofs.Json.Plain
import Reshape.Proofs.Outcome
import Reshape.Proofs.Tree.Positions

/-! What a compiled tree comes from. `compileNode_eq` puts every position together from its directive
and the nodes of its parts, for named and positional parts alike. Where no object has a key twice,
named children have different names. -/

namespace Reshape

namespace Tree

variable {r : Registry} {s : Settings}

/-- The children of a position. -/
def childrenOf (r : Registry) (s : Settings) (es : List (Key × Value)) (path : String) :
    Outcome Children :=
  if hasProperties es then properties r s es path
  else if hasArray "items" es then items r s "items" es path
  else items r s "prefixItems" es path

theorem compileNode_object (es : List (Key × Value)) (path : String) :
    compileNode r s (.object es) path =
      (directiveOf r s es path >>= fun d =>
        childrenOf r s es path >>= fun c => assemble r path es d c) := by
  rw [compileNode]
  unfold childrenOf
  split_ifs <;> rfl

/-! ### Parts -/

/-- Compiles the parts of a position one after the other. -/
def compileParts (r : Registry) (s : Settings) (path : String) (l : List (Branch × Value)) :
    Outcome (List (Branch × Option Node)) :=
  l.mapM fun x => (compileNode r s x.2 (x.1.extend path)).map (x.1, ·)

def namedNode : Branch × Option Node → Option (Key × Node)
  | (.name k, some n) => some (k, n)
  | _ => none

/-- The children that the nodes of the parts make. -/
def childrenOver (es : List (Key × Value)) (ys : List (Branch × Option Node)) : Children :=
  if hasProperties es then namedChildren (ys.filterMap namedNode)
  else indexedChildren (ys.map Prod.snd)

theorem compileParts_cons (path : String) (x : Branch × Value) (l : List (Branch × Value)) :
    compileParts r s path (x :: l) =
      (compileNode r s x.2 (x.1.extend path) >>= fun o =>
        (compileParts r s path l).map fun ys => (x.1, o) :: ys) := by
  rw [compileParts, List.mapM_cons]
  cases compileNode r s x.2 (x.1.extend path) <;> rfl

theorem compileNamed_eq (ps : List (Key × Value)) (path : String) :
    compileNamed r s ps path =
      (compileParts r s path (ps.map fun x => (.name x.1, x.2))).map (·.filterMap namedNode) := by
  induction ps with
  | nil => rfl
  | cons x rest ih =>
    rw [compileNamed, ih, List.map_cons, compileParts_cons]
    change (compileNode r s x.2 (namedPath path x.1) >>= _) =
      Except.map _ (compileNode r s x.2 (namedPath path x.1) >>= _)
    rcases compileNode r s x.2 (namedPath path x.1) with f | _ | n
    · rfl
    all_goals rcases compileParts r s path _ with f | ys <;> rfl

theorem compileItems_eq (vs : List Value) (path : String) (i : Nat) :
    compileItems r s vs path i =
      (compileParts r s path (slotsFrom i vs)).map (·.map Prod.snd) := by
  induction vs generalizing i with
  | nil => rfl
  | cons v rest ih =>
    rw [compileItems, ih, slotsFrom, compileParts_cons]
    change (compileNode r s v (indexedPath path i) >>= _) =
      Except.map _ (compileNode r s v (indexedPath path i) >>= _)
    rcases compileNode r s v (indexedPath path i) with f | o
    · rfl
    · rcases compileParts r s path _ with f | ys <;> rfl

theorem properties_eq (es : List (Key × Value)) (path : String) :
    properties r s es path =
      match Entries.find? (.text "properties") es with
      | some (.object ps) => (compileNamed r s ps path).map namedChildren
      | _ => .ok .leaf := by
  induction es with
  | nil => rfl
  | cons x rest ih =>
    rcases x with ⟨k, v⟩
    by_cases hk : k = .text "properties"
    · cases v with
      | object ps => simp only [properties, Entries.find?, hk, if_true]; rfl
      | _ => simp only [properties, Entries.find?, hk, if_true]
    · cases v <;> simp only [properties, Entries.find?, hk, if_false, ih]

theorem items_eq (key : String) (es : List (Key × Value)) (path : String) :
    items r s key es path =
      match array? key es with
      | some vs => (compileItems r s vs path 0).map indexedChildren
      | none => .ok .leaf := by
  induction es with
  | nil => rfl
  | cons x rest ih =>
    rcases x with ⟨k, v⟩
    by_cases hk : k = .text key
    · cases v with
      | array vs => simp only [items, array?, Entries.find?, hk, if_true]; rfl
      | _ => simp only [items, array?, Entries.find?, hk, if_true]
    · have hrest : array? key ((k, v) :: rest) = array? key rest := by
        simp only [array?, Entries.find?, hk, if_false]
      rw [hrest, ← ih]
      cases v <;> simp only [items, hk, if_false]

/-- Named and positional children come from the parts. -/
theorem childrenOf_eq (es : List (Key × Value)) (path : String) :
    childrenOf r s es path =
      (compileParts r s path (parts (.object es))).map (childrenOver es) := by
  cases hp : hasProperties es with
  | true =>
    obtain ⟨p, hfind⟩ := Option.isSome_iff_exists.mp hp
    have hover : childrenOver es = fun ys => namedChildren (ys.filterMap namedNode) := by
      funext ys
      simp [childrenOver, hp]
    rw [hover]
    simp only [childrenOf, hp, if_true, properties_eq, hfind]
    cases p with
    | object ps => simp only [parts_of_members hfind, compileNamed_eq, Except.map_map]
    | _ => rw [parts, hfind]; rfl
  | false =>
    have hover : childrenOver es = fun ys => indexedChildren (ys.map Prod.snd) := by
      funext ys
      simp [childrenOver, hp]
    rw [hover, parts_of_items hp]
    simp only [childrenOf, hp, Bool.false_eq_true, if_false, hasArray_eq, items_eq, positional?]
    rcases array? "items" es with _ | vs
    · rcases array? "prefixItems" es with _ | vs
      · rfl
      · simp [compileItems_eq, Except.map_map]
    · simp [compileItems_eq, Except.map_map]

/-- Every position: its directive is checked, its parts are compiled, its node is put together. -/
theorem compileNode_eq (es : List (Key × Value)) (path : String) :
    compileNode r s (.object es) path =
      (directiveOf r s es path >>= fun d =>
        compileParts r s path (parts (.object es)) >>= fun ys =>
          assemble r path es d (childrenOver es ys)) := by
  rw [compileNode_object, childrenOf_eq]
  cases compileParts r s path (parts (.object es)) <;> rfl

theorem compileParts_eq_ok {path : String} {l : List (Branch × Value)}
    {ys : List (Branch × Option Node)} :
    compileParts r s path l = .ok ys ↔
      List.Forall₂ (fun x y => compileNode r s x.2 (x.1.extend path) = .ok y.2 ∧ x.1 = y.1) l ys := by
  have hpart : ∀ (x : Branch × Value) (y : Branch × Option Node),
      (compileNode r s x.2 (x.1.extend path)).map (x.1, ·) = .ok y ↔
        compileNode r s x.2 (x.1.extend path) = .ok y.2 ∧ x.1 = y.1 := by
    rintro x ⟨b, o⟩
    cases compileNode r s x.2 (x.1.extend path) <;> simp [Except.map, and_comm]
  rw [compileParts, Except.mapM_eq_ok]
  simp only [hpart]

theorem assemble_eq {d : Option Directive} {c : Children} (h : d ≠ none ∨ c ≠ .leaf)
    (path : String) (es : List (Key × Value)) :
    assemble r path es d c =
      (strategyAt r (d.getD (inferred es)) path).map fun t => some (.mk path t c) := by
  cases d with
  | some d => rfl
  | none =>
    cases c with
    | leaf => simp at h
    | _ => rfl

/-- A position that gives a node has its directive, its strategy and the nodes of its parts. -/
theorem compileNode_eq_some {v : Value} {path : String} {n : Node}
    (h : compileNode r s v path = .ok (some n)) :
    ∃ es d ys t, v = .object es ∧ directiveOf r s es path = .ok d ∧
      List.Forall₂ (fun x y => compileNode r s x.2 (x.1.extend path) = .ok y.2 ∧ x.1 = y.1)
        (parts (.object es)) ys ∧
      (d ≠ none ∨ childrenOver es ys ≠ .leaf) ∧
      strategyAt r (d.getD (inferred es)) path = .ok t ∧ n = .mk path t (childrenOver es ys) := by
  cases v with
  | object es =>
    rw [compileNode_eq] at h
    obtain ⟨d, hd, h⟩ := Except.bind_eq_ok.mp h
    obtain ⟨ys, hys, h⟩ := Except.bind_eq_ok.mp h
    have hne : d ≠ none ∨ childrenOver es ys ≠ .leaf := by
      by_contra hno
      obtain ⟨rfl, hl⟩ : d = none ∧ childrenOver es ys = .leaf := by tauto
      simp [assemble, hl] at h
    rw [assemble_eq hne] at h
    cases ht : strategyAt r (d.getD (inferred es)) path with
    | error f => simp [ht, Except.map] at h
    | ok t =>
      refine ⟨es, d, ys, t, rfl, hd, compileParts_eq_ok.mp hys, hne, ht, ?_⟩
      simpa [ht, Except.map, eq_comm] using h
  | _ => simp [compileNode] at h

/-- A schema gives the node of its root position, or an absent root. -/
theorem compile_eq_ok {schema : Value} {root : Node} (h : compile schema r s = .ok root) :
    compileNode r s schema rootPath = .ok (some root) ∨
      compileNode r s schema rootPath = .ok none ∧ root = .mk rootPath .absent .leaf := by
  unfold compile at h
  split at h
  · cases h
  · obtain ⟨o, ho, h⟩ := Except.bind_eq_ok.mp h
    cases o with
    | none => exact .inr ⟨ho, (Except.ok.inj h).symm⟩
    | some n => exact .inl (Except.ok.inj h ▸ ho)

/-! ### Other registries and settings -/

section Keeps

variable {r' : Registry} {s' : Settings} {P : Failure → Prop}

theorem assemble_keeps (ht : ∀ d path, (strategyAt r d path).Keeps P (strategyAt r' d path))
    (path : String) (es : List (Key × Value)) (d : Option Directive) (c : Children) :
    (assemble r path es d c).Keeps P (assemble r' path es d c) := by
  by_cases hne : d ≠ none ∨ c ≠ .leaf
  · rw [assemble_eq hne, assemble_eq hne]
    exact (ht _ path).map _
  · obtain ⟨rfl, rfl⟩ : d = none ∧ c = .leaf := by tauto
    exact .refl _

/-- What a position compiles to is kept if directives are split and strategies are made as before. -/
theorem compileNode_keeps (ht : ∀ d path, (strategyAt r d path).Keeps P (strategyAt r' d path))
    {v : Value} (hd : ∀ y ∈ positions v, ∀ es, y.2 = .object es →
      ∀ path, directiveOf r' s' es path = directiveOf r s es path) (path : String) :
    (compileNode r s v path).Keeps P (compileNode r' s' v path) := by
  induction v using schemaBranching.ind generalizing path with
  | h v ih =>
    cases v with
    | object es =>
      have hroot := hd ([], .object es) (schemaBranching.mem_places.mpr (.inl rfl)) es rfl path
      rw [compileNode_eq, compileNode_eq, hroot]
      refine (Except.Keeps.refl _).bind fun d _ => Except.Keeps.bind (.mapM fun x hx => ?_) fun ys _ =>
        assemble_keeps ht path es d _
      refine (ih x hx (fun y hy => ?_) _).map _
      exact hd (x.1 :: y.1, y.2) (schemaBranching.mem_places.mpr (.inr ⟨x, hx, y, hy, rfl⟩))
    | _ => simpa only [compileNode] using .refl _

end Keeps

/-! ### Children -/

theorem exists_of_forall₂ {α β : Type} {R : α → β → Prop} {l : List α} {m : List β}
    (h : List.Forall₂ R l m) {b : β} (hb : b ∈ m) : ∃ a ∈ l, R a b := by
  induction h with
  | nil => cases hb
  | @cons a _ l _ hab _ ih =>
    rcases List.mem_cons.mp hb with rfl | hb
    · exact ⟨a, List.mem_cons_self, hab⟩
    · obtain ⟨c, hc, hcb⟩ := ih hb
      exact ⟨c, List.mem_cons_of_mem _ hc, hcb⟩

theorem map_fst_eq {α β γ : Type} {l : List (γ × α)} {m : List (γ × β)}
    {R : γ × α → γ × β → Prop} (hR : ∀ x y, R x y → x.1 = y.1) (h : List.Forall₂ R l m) :
    l.map Prod.fst = m.map Prod.fst := by
  induction h with
  | nil => rfl
  | cons hxy _ ih => simp [hR _ _ hxy, ih]

theorem filledFrom_map_snd {α : Type} {vs : List α} {i : Nat} {ys : List (Branch × Option Node)}
    (h : (slotsFrom i vs).map Prod.fst = ys.map Prod.fst) :
    Children.filledFrom i (ys.map Prod.snd) = ys.filterMap fun y => y.2.map (y.1, ·) := by
  induction ys generalizing i vs with
  | nil => rfl
  | cons y rest ih =>
    cases vs with
    | nil => simp [slotsFrom] at h
    | cons v vs =>
      obtain ⟨hy, hrest⟩ := List.cons.inj h
      rcases y with ⟨b, _ | n⟩
      · simp [Children.filledFrom, ih hrest]
      · obtain rfl : .slot i = b := hy
        simp [Children.filledFrom, ih hrest]

theorem filled_namedChildren (nodes : List (Key × Node)) :
    (namedChildren nodes).filled = nodes.map fun x => (.name x.1, x.2) := by
  cases nodes <;> rfl

theorem filled_indexedChildren (slots : List (Option Node)) :
    (indexedChildren slots).filled = Children.filledFrom 0 slots := by
  unfold indexedChildren
  split
  · next h =>
    refine (List.eq_nil_iff_forall_not_mem.mpr fun x hx => ?_).symm
    obtain ⟨j, -, hj⟩ := Children.mem_filledFrom.mp hx
    simpa using List.all_eq_true.mp h _ (List.mem_of_getElem? hj)
  · rfl

theorem map_filterMap_namedNode {ys : List (Branch × Option Node)}
    (h : ∀ y ∈ ys, ∃ k, y.1 = .name k) :
    ((ys.filterMap namedNode).map fun x => (Branch.name x.1, x.2)) =
      ys.filterMap fun y => y.2.map (y.1, ·) := by
  rw [List.map_filterMap]
  refine List.filterMap_congr fun y hy => ?_
  obtain ⟨k, hk⟩ := h y hy
  rcases y with ⟨b, _ | n⟩ <;> obtain rfl : b = .name k := hk <;> rfl

/-- The children of a position are the nodes of those of its parts that gave one. -/
theorem filled_childrenOver {es : List (Key × Value)} {ys : List (Branch × Option Node)}
    (h : (parts (.object es)).map Prod.fst = ys.map Prod.fst) :
    (childrenOver es ys).filled = ys.filterMap fun y => y.2.map (y.1, ·) := by
  cases hp : hasProperties es with
  | true =>
    have hnames : ∀ y ∈ ys, ∃ k, y.1 = .name k := by
      intro y hy
      have hm : y.1 ∈ (parts (.object es)).map Prod.fst := h ▸ List.mem_map_of_mem hy
      obtain ⟨x, hx, he⟩ := List.mem_map.mp hm
      obtain ⟨k, hk⟩ := name_of_mem_parts hp hx
      exact ⟨k, he ▸ hk⟩
    simp only [childrenOver, hp, if_true, filled_namedChildren, map_filterMap_namedNode hnames]
  | false =>
    rw [parts_of_items hp] at h
    simp only [childrenOver, hp, Bool.false_eq_true, if_false, filled_indexedChildren,
      filledFrom_map_snd h]

/-! ### Names -/

theorem keys_sublist {es : List (Key × Value)} {ys : List (Branch × Option Node)}
    {nodes : List (Key × Node)} (h : childrenOver es ys = .named nodes) :
    (Entries.keys nodes).Sublist ((ys.map Prod.fst).filterMap Branch.name?) := by
  obtain rfl : ys.filterMap namedNode = nodes := by
    unfold childrenOver namedChildren indexedChildren at h
    split_ifs at h
    exact Children.named.inj h
  clear h
  induction ys with
  | nil => exact .slnil
  | cons y rest ih =>
    rcases y with ⟨k | i, _ | n⟩
    · exact ih.cons k
    · exact ih.cons_cons k
    · exact ih
    · exact ih

/-- What is compiled from a schema without repeated keys has different names below every node. -/
theorem compileNode_distinct {v : Value} (hv : v.Keyed) {path : String} {n : Node}
    (h : compileNode r s v path = .ok (some n)) : n.Distinct := by
  induction v using schemaBranching.ind generalizing path n with
  | h v ih =>
    obtain ⟨es, d, ys, t, rfl, -, hys, -, -, rfl⟩ := compileNode_eq_some h
    refine Node.distinct_of_children ?names ?below
    case names =>
      intro nodes hn
      refine List.Nodup.sublist (keys_sublist hn) ?_
      rw [← map_fst_eq (fun _ _ h => h.2) hys]
      refine (nodup_parts hv).filterMap fun b c k hb hc => ?_
      cases b <;> cases c <;> simp_all [Branch.name?]
    case below =>
      intro x hx
      rw [Node.children, filled_childrenOver (map_fst_eq (fun _ _ h => h.2) hys)] at hx
      obtain ⟨y, hy, he⟩ := List.mem_filterMap.mp hx
      obtain ⟨n, hn, rfl⟩ := Option.map_eq_some_iff.mp he
      obtain ⟨p, hp, hc, -⟩ := exists_of_forall₂ hys hy
      exact ih p hp (keyed_part hv hp) (hn ▸ hc)

theorem compile_distinct {schema : Value} (hv : schema.Keyed) {n : Node}
    (h : compile schema r s = .ok n) : n.Distinct := by
  rcases compile_eq_ok h with hroot | ⟨-, rfl⟩
  · exact compileNode_distinct hv hroot
  · refine Node.distinct_of_children ?_ ?_
    · simp [Node.children]
    · simp [Node.children, Children.filled]

/-- A schema that was read as JSON has no repeated keys. -/
theorem compile_parsed_distinct {reading : Json.Reading} {bytes : Text.Bytes} {schema : Value}
    (hp : Json.parseBytes reading bytes = .ok schema) {n : Node} (h : compile schema r s = .ok n) :
    n.Distinct :=
  compile_distinct (Json.parseBytes_plain hp).keyed h

end Tree

end Reshape
