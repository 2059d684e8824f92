import Reshape.Proofs.Tree.Pruning
import Reshape.Proofs.Tree.Twins

/-! The order of siblings. Listing the properties of a schema in another order changes neither whether
compiling and binding succeed nor, but for the order of keys, what they give. Only which of several
faults is reported may change. -/

namespace Reshape.Tree

/-! ### Schemas that are alike -/

variable {r : Registry} {s : Settings}

theorem directiveOf_alike {es fs : List (Key × Value)} (h : (Value.object es).Alike (.object fs))
    (path : String) : directiveOf r s es path = directiveOf r s fs path := by
  have hrel := h.find? (.text s.keyword)
  unfold directiveOf
  generalize Entries.find? (.text s.keyword) es = o, Entries.find? (.text s.keyword) fs = p at hrel
  cases hrel with
  | none => rfl
  | some hvw => cases hvw <;> rfl

theorem hasProperties_alike {es fs : List (Key × Value)}
    (h : (Value.object es).Alike (.object fs)) : hasProperties es = hasProperties fs := by
  have hrel := h.find? (.text "properties")
  unfold hasProperties Entries.has
  generalize Entries.find? (.text "properties") es = o,
    Entries.find? (.text "properties") fs = p at hrel
  cases hrel <;> rfl

/-- Alike objects have arrays of alike items under the same keys. -/
theorem array?_alike {es fs : List (Key × Value)} (h : (Value.object es).Alike (.object fs))
    (key : String) :
    Option.Rel (fun xs ys => (Value.array xs).Alike (.array ys)) (array? key es) (array? key fs) := by
  have hrel := h.find? (.text key)
  unfold array?
  generalize Entries.find? (.text key) es = o, Entries.find? (.text key) fs = p at hrel
  cases hrel with
  | none => exact .none
  | @some v w hvw =>
    cases hvw with
    | same => cases v <;> first | exact .none | exact .some (.same _)
    | array hl hi => exact .some (.array hl hi)
    | object _ _ => exact .none

theorem positional?_alike {es fs : List (Key × Value)} (h : (Value.object es).Alike (.object fs)) :
    Option.Rel (fun xs ys => (Value.array xs).Alike (.array ys)) (positional? es)
      (positional? fs) := by
  have hitems := array?_alike h "items"
  have hprefix := array?_alike h "prefixItems"
  unfold positional?
  generalize array? "items" es = a, array? "items" fs = b at hitems
  cases hitems with
  | none => simpa using hprefix
  | some hab => exact .some hab

/-- Parts that stand on the same branch and are alike. -/
def SameParts : List (Branch × Value) → List (Branch × Value) → Prop :=
  Matched fun x y => x.1 = y.1 ∧ x.2.Alike y.2

theorem slotsFrom_alike {xs ys : List Value} (h : (Value.array xs).Alike (.array ys)) (i : Nat) :
    SameParts (slotsFrom i xs) (slotsFrom i ys) := by
  obtain ⟨_, he, hl, hi⟩ := h.array_left
  obtain rfl := Value.array.inj he
  constructor
  · rintro ⟨b, x⟩ hx
    obtain ⟨j, rfl, hj⟩ := mem_slotsFrom.mp hx
    have hlt : j < ys.length := hl ▸ (List.getElem?_eq_some_iff.mp hj).1
    have hy := List.getElem?_eq_getElem hlt
    exact ⟨(_, ys[j]), mem_slotsFrom.mpr ⟨j, rfl, hy⟩, rfl, hi j x ys[j] hj hy⟩
  · rintro ⟨b, y⟩ hy
    obtain ⟨j, rfl, hj⟩ := mem_slotsFrom.mp hy
    have hlt : j < xs.length := hl ▸ (List.getElem?_eq_some_iff.mp hj).1
    have hx := List.getElem?_eq_getElem hlt
    exact ⟨(_, xs[j]), mem_slotsFrom.mpr ⟨j, rfl, hx⟩, rfl, hi j xs[j] y hx hj⟩

theorem members_alike {ps qs : List (Key × Value)} (h : (Value.object ps).Alike (.object qs))
    (hp : (Entries.keys ps).Nodup) (hq : (Entries.keys qs).Nodup) :
    SameParts (ps.map fun x => (.name x.1, x.2)) (qs.map fun x => (.name x.1, x.2)) := by
  constructor
  · intro x hx
    obtain ⟨⟨k, v⟩, hm, rfl⟩ := List.mem_map.mp hx
    obtain ⟨w, hw, hvw⟩ := h.find?_right (Entries.find?_of_mem hp hm)
    exact ⟨_, List.mem_map_of_mem (Entries.mem_of_find? hw), rfl, hvw⟩
  · intro y hy
    obtain ⟨⟨k, w⟩, hm, rfl⟩ := List.mem_map.mp hy
    obtain ⟨v, hv, hvw⟩ := h.find?_left (Entries.find?_of_mem hq hm)
    exact ⟨_, List.mem_map_of_mem (Entries.mem_of_find? hv), rfl, hvw⟩

/-- Schemas that are alike have the same parts. -/
theorem parts_alike {es fs : List (Key × Value)} (h : (Value.object es).Alike (.object fs))
    (hes : (Value.object es).Keyed) (hfs : (Value.object fs).Keyed) :
    SameParts (parts (.object es)) (parts (.object fs)) := by
  cases hp : Entries.find? (.text "properties") es with
  | none =>
    have hq := (rel_none_iff (h.find? (.text "properties"))).mp hp
    rw [parts_of_items (by simp [hasProperties, Entries.has, hp]),
      parts_of_items (by simp [hasProperties, Entries.has, hq])]
    have hitems := positional?_alike h
    generalize positional? es = a, positional? fs = b at hitems
    cases hitems with
    | none => exact ⟨by simp [slotsFrom], by simp [slotsFrom]⟩
    | some hab => exact slotsFrom_alike hab 0
  | some p =>
    obtain ⟨q, hq, hpq⟩ := h.find?_right hp
    have hpk : p.Keyed := hes.member (Entries.mem_of_find? hp)
    have hqk : q.Keyed := hfs.member (Entries.mem_of_find? hq)
    simp only [parts, hp, hq]
    cases p with
    | object ps =>
      obtain ⟨qs, rfl, -⟩ := hpq.object_left
      exact members_alike hpq hpk.nodup hqk.nodup
    | _ => cases hpq <;> exact ⟨by simp, by simp⟩

/-- Positional items that are alike are as many. -/
theorem length_positional? {es fs : List (Key × Value)} (h : (Value.object es).Alike (.object fs)) :
    (positional? es).map List.length = (positional? fs).map List.length := by
  have hitems := positional?_alike h
  generalize positional? es = a, positional? fs = b at hitems
  cases hitems with
  | none => rfl
  | some hab =>
    obtain ⟨_, he, hl, -⟩ := hab.array_left
    obtain rfl := Value.array.inj he
    exact congrArg some hl

theorem inferred_alike {es fs : List (Key × Value)} (h : (Value.object es).Alike (.object fs)) :
    inferred es = inferred fs := by
  rw [inferred, inferred, hasProperties_alike h, itemCount?_eq, itemCount?_eq, length_positional? h]

theorem length_parts {es fs : List (Key × Value)} (h : (Value.object es).Alike (.object fs))
    (hp : hasProperties es = false) :
    (parts (.object es)).length = (parts (.object fs)).length := by
  have hitems := length_positional? h
  rw [parts_of_items hp, parts_of_items (hasProperties_alike h ▸ hp), length_slotsFrom,
    length_slotsFrom]
  generalize positional? es = a, positional? fs = b at hitems ⊢
  cases a <;> cases b <;> simp_all

theorem childrenOver_named {es : List (Key × Value)} {ys : List (Branch × Option Node)}
    (hp : hasProperties es = true) (h : childrenOver es ys ≠ .leaf) :
    ∃ nodes, childrenOver es ys = .named nodes := by
  simp only [childrenOver, hp, if_true, namedChildren] at h ⊢
  split_ifs at h ⊢
  · exact absurd rfl h
  · exact ⟨_, rfl⟩

theorem childrenOver_indexed {es : List (Key × Value)} {ys : List (Branch × Option Node)}
    (hp : hasProperties es = false) (h : childrenOver es ys ≠ .leaf) :
    childrenOver es ys = .indexed (ys.map Prod.snd) := by
  simp only [childrenOver, hp, Bool.false_eq_true, if_false, indexedChildren] at h ⊢
  split_ifs at h ⊢
  · exact absurd rfl h
  · rfl

/-- Of the children of a position only their kind, and the number of slots, decide what can hold
them. -/
theorem fits_childrenOver {es fs : List (Key × Value)} {ys zs : List (Branch × Option Node)}
    (hp : hasProperties es = hasProperties fs) (hl : hasProperties es = false → ys.length = zs.length)
    (hleaf : childrenOver es ys = .leaf ↔ childrenOver fs zs = .leaf) (v : Value) :
    fits (childrenOver es ys) v = fits (childrenOver fs zs) v := by
  by_cases hy : childrenOver es ys = .leaf
  · rw [hy, hleaf.mp hy]
  · have hz := mt hleaf.mpr hy
    cases hb : hasProperties es with
    | true =>
      obtain ⟨_, hy⟩ := childrenOver_named hb hy
      obtain ⟨_, hz⟩ := childrenOver_named (hp ▸ hb) hz
      rw [hy, hz]
      cases v <;> rfl
    | false =>
      rw [childrenOver_indexed hb hy, childrenOver_indexed (hp ▸ hb) hz]
      cases v with
      | array items => simp only [fits, List.length_map, hl hb]
      | _ => rfl

/-- The nodes of parts that are alike. -/
def SameNodes : List (Branch × Option Node) → List (Branch × Option Node) → Prop :=
  Matched fun y z => y.1 = z.1 ∧ Option.Rel Equivalent y.2 z.2

theorem compileParts_eq {path : String} {l : List (Branch × Value)}
    {ys : List (Branch × Option Node)} (h : compileParts r s path l = .ok ys) :
    l.map Prod.fst = ys.map Prod.fst :=
  map_fst_eq (fun _ _ h => h.2) (compileParts_eq_ok.mp h)

theorem SameNodes.leaf_iff {ys zs : List (Branch × Option Node)} (h : SameNodes ys zs) :
    (∀ y ∈ ys, y.2 = none) ↔ ∀ z ∈ zs, z.2 = none := by
  constructor
  · intro hy z hz
    obtain ⟨y, hm, -, hrel⟩ := h.right z hz
    exact (rel_none_iff hrel).mp (hy y hm)
  · intro hz y hy
    obtain ⟨z, hm, -, hrel⟩ := h.left y hy
    exact (rel_none_iff hrel).mpr (hz z hm)

theorem SameNodes.filled {ys zs : List (Branch × Option Node)} (h : SameNodes ys zs) :
    Matched (fun x y => x.1 = y.1 ∧ Equivalent x.2 y.2)
      (ys.filterMap fun y => y.2.map (y.1, ·)) (zs.filterMap fun z => z.2.map (z.1, ·)) := by
  refine Matched.filterMap h ?_
  rintro ⟨b, o⟩ ⟨_, p⟩ ⟨rfl, hrel⟩
  cases hrel with
  | none => exact .none
  | some hnm => exact .some ⟨rfl, hnm⟩

/-- Positions whose parts are alike both have children or both have none, and make twins. -/
theorem twins_of_parts {es fs : List (Key × Value)} (h : (Value.object es).Alike (.object fs))
    (hes : (Value.object es).Keyed) (hfs : (Value.object fs).Keyed) {path : String}
    {ys zs : List (Branch × Option Node)} (hy : compileParts r s path (parts (.object es)) = .ok ys)
    (hz : compileParts r s path (parts (.object fs)) = .ok zs) (hyz : SameNodes ys zs) :
    (childrenOver es ys = .leaf ↔ childrenOver fs zs = .leaf) ∧
      ∀ t, Twins (.mk path t (childrenOver es ys)) (.mk path t (childrenOver fs zs)) := by
  have hyfst := compileParts_eq hy
  have hzfst := compileParts_eq hz
  have hleaf : childrenOver es ys = .leaf ↔ childrenOver fs zs = .leaf := by
    rw [childrenOver_eq_leaf_iff hyfst, childrenOver_eq_leaf_iff hzfst]
    exact hyz.leaf_iff
  have hlength : hasProperties es = false → ys.length = zs.length := by
    intro hp
    have hly := congrArg List.length hyfst
    have hlz := congrArg List.length hzfst
    simp only [List.length_map] at hly hlz
    rw [← hly, ← hlz, length_parts h hp]
  have hnodup : ∀ {l : List (Branch × Option Node)}, (l.map Prod.fst).Nodup →
      ((l.filterMap fun y => y.2.map (y.1, ·)).map Prod.fst).Nodup := by
    refine fun hl => nodup_filterMap (fun x y hxy => ?_) hl
    obtain ⟨n, -, rfl⟩ := Option.map_eq_some_iff.mp hxy
    rfl
  refine ⟨hleaf, fun t => ⟨rfl, ?fits, ?left, ?right, ?matched⟩⟩
  case fits => exact fits_childrenOver (hasProperties_alike h) hlength hleaf
  case left =>
    rw [Node.children, filled_childrenOver hyfst]
    exact hnodup (hyfst ▸ nodup_parts hes)
  case right =>
    rw [Node.children, filled_childrenOver hzfst]
    exact hnodup (hzfst ▸ nodup_parts hfs)
  case matched =>
    rw [Node.children, Node.children, filled_childrenOver hyfst, filled_childrenOver hzfst]
    exact hyz.filled

theorem assemble_twins {es fs : List (Key × Value)} (h : (Value.object es).Alike (.object fs))
    {path : String} {c c' : Children} (hleaf : c = .leaf ↔ c' = .leaf)
    (ht : ∀ t, Twins (.mk path t c) (.mk path t c')) (d : Option Directive) :
    Except.Agrees (Option.Rel Equivalent) (assemble r path es d c) (assemble r path fs d c') := by
  by_cases hd : d ≠ none ∨ c ≠ .leaf
  · have hd' : d ≠ none ∨ c' ≠ .leaf := hd.imp_right (mt hleaf.mpr)
    rw [assemble_eq hd, assemble_eq hd', inferred_alike h]
    refine (Except.Agrees.of_eq (R := Eq) fun _ => rfl).map ?_
    rintro t _ - - rfl
    exact .some (ht t).equivalent
  · obtain ⟨rfl, rfl⟩ : d = none ∧ c = .leaf := by tauto
    obtain rfl := hleaf.mp rfl
    exact .ok .none

/-- Schemas that are alike compile to equivalent nodes, or both to none, or both fail. -/
theorem compileNode_alike {v w : Value} (h : v.Alike w) (hv : v.Keyed) (hw : w.Keyed)
    (path : String) :
    Except.Agrees (Option.Rel Equivalent) (compileNode r s v path) (compileNode r s w path) := by
  induction v using schemaBranching.ind generalizing w path with
  | h v ih =>
    cases v with
    | object es =>
      obtain ⟨fs, rfl, -⟩ := h.object_left
      rw [compileNode_eq, compileNode_eq, directiveOf_alike h]
      refine (Except.Agrees.of_eq (R := Eq) fun _ => rfl).bind ?_
      rintro d _ - - rfl
      have hparts : Except.Agrees SameNodes (compileParts r s path (parts (.object es)))
          (compileParts r s path (parts (.object fs))) := by
        refine Except.mapM_matched ((parts_alike h hv hw).imp ?_)
        rintro ⟨b, p⟩ hp ⟨_, q⟩ hq ⟨rfl, hpq⟩
        exact (ih (b, p) hp hpq (keyed_part hv hp) (keyed_part hw hq) _).map
          fun _ _ _ _ hrel => ⟨rfl, hrel⟩
      refine hparts.bind fun ys zs hy hz hyz => ?_
      obtain ⟨hleaf, ht⟩ := twins_of_parts h hv hw hy hz hyz
      exact assemble_twins h hleaf ht d
    | _ => cases h <;> exact .ok .none

/-- Whether compiling and binding succeed does not depend on the order of properties, and neither does
what they give, but for the order of keys. -/
theorem compile_permuted {S T : Value} (h : S.Permuted T) (hS : S.Keyed) (r : Registry)
    (s : Settings) :
    ((∃ n, compile S r s = .ok n) ↔ ∃ m, compile T r s = .ok m) ∧
      ∀ n m, compile S r s = .ok n → compile T r s = .ok m →
        ∀ raw rs, (∀ x ∈ rs, x.Steady raw) →
          Except.Agrees Extraction.Alike (freshRun raw rs none n).1 (freshRun raw rs none m).1 := by
  obtain ⟨halike, hT⟩ := h.alike hS
  have hcompile : Except.Agrees Equivalent (compile S r s) (compile T r s) := by
    unfold compile
    split
    · exact .error _ _
    · refine (compileNode_alike halike hS hT rootPath).bind ?_
      rintro _ _ - - hrel
      cases hrel with
      | none => exact .ok (.refl _)
      | some hnm => exact .ok hnm
  exact ⟨hcompile.ok_iff, fun n m hn hm => hcompile.rel hn hm⟩

/-- Two properties that are listed the other way round. -/
theorem compile_permuted_swapped :
    let a : Key × Value := ("a", .ofFields [("bind", .text "pointer:/x")])
    let b : Key × Value := ("b", .ofFields [("bind", .text "pointer:/y")])
    let S := Value.object [("properties", .object [a, b])]
    let T := Value.object [("properties", .object [b, a])]
    let leaf (path token : String) : Node :=
      .mk path ⟨"pointer", "/" ++ token, some "json", .pointer ⟨[token]⟩⟩ .leaf
    let n := Node.mk "$" .mapping (.named [("a", leaf "$.a" "x"), ("b", leaf "$.b" "y")])
    let m := Node.mk "$" .mapping (.named [("b", leaf "$.b" "y"), ("a", leaf "$.a" "x")])
    let raw := Text.utf8 "\x7b\"x\": 1\x7d"
    let rs := Registry.default.representations
    S.Permuted T ∧ S.Keyed ∧ compile S .default {} = .ok n ∧ compile T .default {} = .ok m ∧
      Except.Agrees Extraction.Alike (freshRun raw rs none n).1 (freshRun raw rs none m).1 := by
  intro a b S T leaf n m raw rs
  have hpermuted : S.Permuted T :=
    @Value.Permuted.properties [] [] [a, b] [b, a] (List.Perm.swap b a [])
  have hposition : ∀ t, Value.Keyed (.ofFields [("bind", .text t)]) := fun t =>
    .object (by simp) (by simpa using .atom (by simp) (by simp))
  have hkeyed : S.Keyed := by
    refine .object (by simp) (List.forall_mem_singleton.mpr (.object (by simp [a, b]) ?_))
    exact List.forall_mem_cons.mpr ⟨hposition _, List.forall_mem_singleton.mpr (hposition _)⟩
  have hn : compile S .default {} = .ok n := rfl
  have hm : compile T .default {} = .ok m := rfl
  exact ⟨hpermuted, hkeyed, hn, hm,
    (compile_permuted hpermuted hkeyed .default {}).2 n m hn hm raw rs (steady_default raw)⟩

end Reshape.Tree
