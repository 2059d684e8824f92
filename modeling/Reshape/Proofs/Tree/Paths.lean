import Reshape.Proofs.Text.Digits
import Reshape.Proofs.Text.Joined
import Reshape.Proofs.Tree.Causes
import Reshape.Proofs.Tree.Exactness

/-! Paths of nodes. A path is that of the root with a segment for each branch on the way, and a segment
is never empty, so paths get longer on the way down. Where no name holds a separator, a segment ends
where the next one starts: the way can be read back from the path, and different nodes have different
paths. -/

namespace Reshape

/-! ### Segments -/

/-- What a branch adds to a path. -/
def Branch.segment : Branch → String
  | .name k => "." ++ k.inPath
  | .slot i => "[" ++ toString i ++ "]"

theorem Branch.extend_eq (b : Branch) (path : String) : b.extend path = path ++ b.segment := by
  cases b with
  | name k => exact String.append_assoc
  | slot i => simp only [extend, Tree.indexedPath, segment, String.append_assoc]

theorem Branch.segment_ne_empty (b : Branch) : b.segment ≠ "" := by
  intro h
  have hchars := congrArg String.toList h
  cases b <;> simp [segment] at hchars

namespace Tree

/-- What a way adds to a path. -/
def trail : List Branch → String
  | [] => ""
  | b :: way => b.segment ++ trail way

theorem pathAlong_eq (path : String) (way : List Branch) : pathAlong path way = path ++ trail way := by
  induction way generalizing path with
  | nil => exact String.append_empty.symm
  | cons b way ih =>
    have hway : pathAlong path (b :: way) = pathAlong (b.extend path) way := rfl
    rw [hway, ih, b.extend_eq, trail, String.append_assoc]

/-! ### Reading a way back -/

/-- A segment starts with one of these. -/
def isSeparator (c : Char) : Bool := c == '.' || c == '['

end Tree

/-- A slot, or a name without a separator. -/
def Branch.Plain : Branch → Prop
  | .name k => ∃ t, k = .text t ∧ ∀ c ∈ t.toList, Tree.isSeparator c = false
  | .slot _ => True

namespace Tree

theorem segment_eq {b : Branch} (h : b.Plain) :
    ∃ c cs, b.segment.toList = c :: cs ∧ isSeparator c = true ∧ ∀ d ∈ cs, isSeparator d = false := by
  cases b with
  | name k =>
    obtain ⟨t, rfl, ht⟩ := h
    exact ⟨'.', t.toList, by simp [Branch.segment, Key.inPath], rfl, ht⟩
  | slot i =>
    refine ⟨'[', (toString i).toList ++ [']'], by simp [Branch.segment], rfl, ?_⟩
    intro d hd
    rcases List.mem_append.mp hd with hd | hd
    · have hdigit : d.isDigit = true := Text.isDigit_of_mem_toDigits (n := i) (by simpa using hd)
      obtain ⟨hlo, -⟩ := Text.toNat_of_isDigit hdigit
      unfold isSeparator
      rw [Bool.or_eq_false_iff, beq_eq_false_iff_ne, beq_eq_false_iff_ne]
      constructor <;> rintro rfl <;> revert hdigit <;> decide
    · obtain rfl := List.mem_singleton.mp hd
      rfl

theorem toString_injective {i j : Nat} (h : toString i = toString j) : i = j := by
  have hdigits : Nat.toDigits 10 i = Nat.toDigits 10 j := by simpa using congrArg String.toList h
  rw [← Text.natOfDigits_toDigits i, hdigits, Text.natOfDigits_toDigits]

theorem segment_injective {b c : Branch} (hb : b.Plain) (hc : c.Plain) (h : b.segment = c.segment) :
    b = c := by
  have hchars := congrArg String.toList h
  cases b with
  | name k =>
    obtain ⟨t, rfl, -⟩ := hb
    cases c with
    | name j =>
      obtain ⟨u, rfl, -⟩ := hc
      simpa [Branch.segment, Key.inPath, String.toList_inj] using hchars
    | slot j => simp [Branch.segment] at hchars
  | slot i =>
    cases c with
    | name j => simp [Branch.segment] at hchars
    | slot j =>
      have hij : (toString i).toList = (toString j).toList := by simpa [Branch.segment] using hchars
      rw [toString_injective (String.toList_inj.mp hij)]

theorem head?_trail {way : List Branch} (h : ∀ b ∈ way, b.Plain) {c : Char}
    (hc : (trail way).toList.head? = some c) : (!isSeparator c) = false := by
  cases way with
  | nil => cases hc
  | cons b way =>
    obtain ⟨d, ds, hb, hd, -⟩ := segment_eq (List.forall_mem_cons.mp h).1
    rw [trail, String.toList_append, hb] at hc
    obtain rfl := Option.some.inj hc
    rw [hd]
    rfl

/-- A way can be read back from what it adds to a path. -/
theorem trail_injective {way way' : List Branch} (h : ∀ b ∈ way, b.Plain)
    (h' : ∀ b ∈ way', b.Plain) (he : trail way = trail way') : way = way' := by
  have hne : ∀ (b : Branch) (way : List Branch), trail (b :: way) ≠ "" := by
    intro b way hempty
    exact b.segment_ne_empty (String.append_eq_empty_iff.mp hempty).1
  induction way generalizing way' with
  | nil =>
    cases way' with
    | nil => rfl
    | cons c way' => exact absurd he.symm (hne c way')
  | cons b way ih =>
    cases way' with
    | nil => exact absurd he (hne b way)
    | cons c way' =>
      obtain ⟨hb, hway⟩ := List.forall_mem_cons.mp h
      obtain ⟨hc, hway'⟩ := List.forall_mem_cons.mp h'
      obtain ⟨d, ds, hbs, -, hds⟩ := segment_eq hb
      obtain ⟨e, es, hcs, -, hes⟩ := segment_eq hc
      have hchars : d :: (ds ++ (trail way).toList) = e :: (es ++ (trail way').toList) := by
        simpa [trail, hbs, hcs] using congrArg String.toList he
      obtain ⟨rfl, hrest⟩ := List.cons.inj hchars
      -- a segment is all that comes before the next separator
      have hseg : ds = es := by
        calc ds = (ds ++ (trail way).toList).takeWhile fun c => !isSeparator c :=
              (Text.takeWhile_append_of_stop (by simpa using hds) fun _ => head?_trail hway).symm
          _ = (es ++ (trail way').toList).takeWhile fun c => !isSeparator c := by rw [hrest]
          _ = es := Text.takeWhile_append_of_stop (by simpa using hes) fun _ => head?_trail hway'
      obtain rfl : b = c := by
        refine segment_injective hb hc (String.toList_inj.mp ?_)
        rw [hbs, hcs, hseg]
      rw [ih hway hway' (String.toList_inj.mp (List.append_cancel_left (hseg ▸ hrest)))]

/-! ### Paths in a tree -/

/-- Each path below a node is that of the node and something more. -/
def Lengthens (root : Node) : Prop :=
  ∀ n ∈ root.walk, ∀ x ∈ n.children.filled, ∃ t, t ≠ "" ∧ x.2.path = n.path ++ t

theorem lengthens_of_children {n : Node}
    (hn : ∀ x ∈ n.children.filled, ∃ t, t ≠ "" ∧ x.2.path = n.path ++ t)
    (hc : ∀ x ∈ n.children.filled, Lengthens x.2) : Lengthens n := by
  intro m hm x hx
  rw [n.walk_eq] at hm
  rcases List.mem_cons.mp hm with rfl | hm
  · exact hn x hx
  · obtain ⟨y, hy, hm⟩ := List.mem_flatMap.mp hm
    exact hc y hy m hm x hx

theorem Lengthens.child {n : Node} (h : Lengthens n) {x : Branch × Node}
    (hx : x ∈ n.children.filled) : Lengthens x.2 :=
  fun m hm => h m (Node.mem_walk_of_child hx hm)

/-- On the way from the root to a node, paths get longer. -/
theorem Lengthens.lineage {n : Node} (h : Lengthens n) {y : List Node × Node}
    (hy : y ∈ Node.branching.lineages n) :
    (y.1 ++ [y.2]).Pairwise (fun a b => a.path.length < b.path.length) ∧
      ∀ m ∈ y.1 ++ [y.2], n.path.length ≤ m.path.length := by
  induction n using Node.ind generalizing y with
  | h n ih =>
    rw [Branching.lineages_eq] at hy
    rcases List.mem_cons.mp hy with rfl | hy
    · simp
    · obtain ⟨x, hx, hy⟩ := List.mem_flatMap.mp hy
      obtain ⟨z, hz, rfl⟩ := List.mem_map.mp hy
      obtain ⟨hpairs, hlonger⟩ := ih x hx (h.child hx) hz
      obtain ⟨t, ht, hpath⟩ := h n n.self_mem_walk x hx
      have hlt : n.path.length < x.2.path.length := by
        have hpos := Nat.pos_of_ne_zero (mt String.length_eq_zero_iff.mp ht)
        rw [hpath, String.length_append]
        omega
      have hbelow : ∀ m ∈ z.1 ++ [z.2], n.path.length < m.path.length :=
        fun m hm => hlt.trans_le (hlonger m hm)
      refine ⟨List.pairwise_cons.mpr ⟨hbelow, hpairs⟩, List.forall_mem_cons.mpr ⟨le_rfl, ?_⟩⟩
      exact fun m hm => (hbelow m hm).le

variable {r : Registry} {s : Settings}

theorem path_of_compile {v : Value} {path : String} {n : Node}
    (h : compileNode r s v path = .ok (some n)) : n.path = path := by
  obtain ⟨es, d, ys, t, -, -, -, -, -, rfl⟩ := compileNode_eq_some h
  rfl

theorem lengthens_of_compile {v : Value} {path : String} {n : Node}
    (h : compileNode r s v path = .ok (some n)) : Lengthens n := by
  induction v using schemaBranching.ind generalizing path n with
  | h v ih =>
    obtain ⟨es, d, ys, t, rfl, -, hys, -, -, rfl⟩ := compileNode_eq_some h
    -- a child was compiled from a part, at the path of the part
    have hchild : ∀ x ∈ (Node.mk path t (childrenOver es ys)).children.filled,
        ∃ p ∈ parts (.object es), compileNode r s p.2 (p.1.extend path) = .ok (some x.2) := by
      intro x hx
      rw [Node.children, filled_childrenOver (map_fst_eq (fun _ _ h => h.2) hys)] at hx
      obtain ⟨y, hy, he⟩ := List.mem_filterMap.mp hx
      obtain ⟨n, hn, rfl⟩ := Option.map_eq_some_iff.mp he
      obtain ⟨p, hp, hc, -⟩ := exists_of_forall₂ hys hy
      exact ⟨p, hp, hn ▸ hc⟩
    refine lengthens_of_children (fun x hx => ?_) fun x hx => ?_
    · obtain ⟨p, -, hc⟩ := hchild x hx
      exact ⟨p.1.segment, p.1.segment_ne_empty,
        (path_of_compile hc).trans (p.1.extend_eq path)⟩
    · obtain ⟨p, hp, hc⟩ := hchild x hx
      exact ih p hp hc

/-- Where no name holds a separator, different nodes have different paths. -/
theorem nodup_paths_of_compile {v : Value} (hk : v.Keyed)
    (hnames : ∀ y ∈ positions v, ∀ b ∈ y.1, b.Plain) {path : String} {n : Node}
    (h : compileNode r s v path = .ok (some n)) : (n.walk.map Node.path).Nodup := by
  have hcorresponds := corresponds_of_compile h
  have hways := map_fst_eq (fun _ _ h => h.1) hcorresponds
  have hplain : ∀ way ∈ n.placed.map Prod.fst, ∀ b ∈ way, b.Plain := by
    intro way hway
    rw [hways] at hway
    obtain ⟨y, hy, rfl⟩ := List.mem_map.mp hway
    exact hnames y (List.mem_of_mem_filter hy)
  have hpaths : n.walk.map Node.path = (n.placed.map Prod.fst).map fun way => path ++ trail way := by
    rw [← n.map_snd_placed, List.map_map, List.map_map]
    refine List.map_congr_left fun x hx => ?_
    obtain ⟨y, -, hway, es, -, hy⟩ := exists_of_forall₂ hcorresponds.flip hx
    simp only [Function.comp_apply, hy.path, hway, pathAlong_eq]
  have hnodup : (n.placed.map Prod.fst).Nodup := by
    rw [hways]
    exact (nodup_positions hk).sublist (List.filter_sublist.map Prod.fst)
  rw [hpaths]
  refine hnodup.map_on fun way hway way' hway' he => ?_
  exact trail_injective (hplain way hway) (hplain way' hway') (String.append_right_inj path |>.mp he)

/-! ### Faults and their paths -/

/-- Where different nodes have different paths, the path of a fault names one node, unless a step raised
the fault with a path of its own. -/
theorem count_of_located {root : Node} (hn : (root.walk.map Node.path).Nodup) {raw : Text.Bytes}
    {rs : List Representation} (token : Option CancelToken) {path : String} {cause : Fault}
    (h : (freshRun raw rs token root).1 = .error (.fault (.located path cause))) :
    (root.walk.map Node.path).count path = 1 ∨
      ∃ n ∈ root.walk, ∃ t, ownStep n t = .error (.fault (.located path cause)) := by
  have hstops := bind_stops token root (Cache.over_ofDocument raw rs) h
  generalize (bind token root (.ofCache (.ofDocument raw rs))).2 = u,
    hf : Failure.fault (.located path cause) = f at hstops
  cases hstops with
  | cancelled hm => cases hf
  | @step m t g hm _ ho =>
    cases g with
    | crash c => cases hf
    | fault g =>
      simp only [Failure.locate, Fault.locate] at hf
      split_ifs at hf
      · exact .inr ⟨m, hm, t, hf ▸ ho⟩
      · obtain ⟨rfl, rfl⟩ := Fault.located.inj (Failure.fault.inj hf)
        exact .inl (List.count_eq_one_of_mem hn (List.mem_map_of_mem hm))

/-- A child's path is that of its parent and something more, so no path repeats on the way to a node.
Where the names that the compiler comes to are texts without a separator, no two nodes of the tree
have the same path, and the path of a fault names exactly one of them, unless a step raised the fault
with a path of its own. -/
theorem compile_paths {schema : Value} (hk : schema.Keyed) {root : Node}
    (h : compile schema r s = .ok root) :
    (∀ n ∈ root.walk, ∀ x ∈ n.children.filled, ∃ t, t ≠ "" ∧ x.2.path = n.path ++ t) ∧
      (∀ y ∈ Node.branching.lineages root, ((y.1 ++ [y.2]).map Node.path).Nodup) ∧
      ((∀ y ∈ positions schema, ∀ b ∈ y.1, b.Plain) →
        (root.walk.map Node.path).Nodup ∧
          ∀ raw rs token path cause,
            (freshRun raw rs token root).1 = .error (.fault (.located path cause)) →
            (root.walk.map Node.path).count path = 1 ∨
              ∃ n ∈ root.walk, ∃ t, ownStep n t = .error (.fault (.located path cause))) := by
  have hlengthens : Lengthens root := by
    rcases compile_eq_ok h with hroot | ⟨-, rfl⟩
    · exact lengthens_of_compile hroot
    · exact lengthens_of_children (by simp [Node.children, Children.filled])
        (by simp [Node.children, Children.filled])
  refine ⟨hlengthens, fun y hy => ?lineage, fun hnames => ?nodes⟩
  case lineage =>
    refine List.Pairwise.map Node.path (fun a b hab he => ?_) (hlengthens.lineage hy).1
    rw [he] at hab
    exact lt_irrefl _ hab
  case nodes =>
    have hnodup : (root.walk.map Node.path).Nodup := by
      rcases compile_eq_ok h with hroot | ⟨-, rfl⟩
      · exact nodup_paths_of_compile hk hnames hroot
      · simp [Node.walk, Node.walkChildren]
    exact ⟨hnodup, fun raw rs token path cause hf => count_of_located hnodup token hf⟩

/-- An empty name, a name with a bracket of the other kind, and a sequence that is too short. -/
theorem compile_paths_empty_name :
    let leaf : Value := .object [("bind", .text "nil:")]
    let short : Value := .object [("bind", .text "slice:1"), ("items", .array [leaf, leaf])]
    let schema : Value := .object [("properties", .object [("", short), ("0]", leaf)])]
    let first := Node.mk "$.[0]" .absent .leaf
    let second := Node.mk "$.[1]" .absent .leaf
    let slice := Node.mk "$." ⟨"slice", "1", none, .sequence 1⟩ (.indexed [some first, some second])
    let other := Node.mk "$.0]" .absent .leaf
    let root := Node.mk "$" .mapping (.named [("", slice), ("0]", other)])
    let rs := Registry.default.representations
    schema.Keyed ∧ compile schema .default {} = .ok root ∧
      (∀ y ∈ positions schema, ∀ b ∈ y.1, b.Plain) ∧
      (freshRun [] rs none root).1 = .error (.fault (.located "$." (.capacity 1 2))) ∧
      (root.walk.map Node.path).count "$." = 1 := by
  intro leaf short schema first second slice other root rs
  have h : compile schema .default {} = .ok root := rfl
  have hleaf : leaf.Keyed := .object (by simp) (by simpa using .atom (by simp) (by simp))
  have hkeyed : schema.Keyed := by
    refine .object (by simp) (List.forall_mem_singleton.mpr (.object (by simp) ?_))
    refine List.forall_mem_cons.mpr ⟨?_, List.forall_mem_singleton.mpr hleaf⟩
    refine .object (by simp) (List.forall_mem_cons.mpr ⟨.atom (by simp) (by simp), ?_⟩)
    exact List.forall_mem_singleton.mpr (.array (by simpa using hleaf))
  have hpart : positions leaf = [([], leaf)] := positions_eq leaf
  have hslice : positions short = [([], short), ([.slot 0], leaf), ([.slot 1], leaf)] := by
    have hparts : parts short = [(.slot 0, leaf), (.slot 1, leaf)] := rfl
    rw [positions_eq, hparts]
    simp [hpart]
  have hways : (positions schema).map Prod.fst =
      [[], [.name ""], [.name "", .slot 0], [.name "", .slot 1], [.name "0]"]] := by
    have hparts : parts schema = [(.name "", short), (.name "0]", leaf)] := rfl
    rw [positions_eq, hparts]
    simp [hpart, hslice]
  have hnames : ∀ y ∈ positions schema, ∀ b ∈ y.1, b.Plain := by
    intro y hy
    have hway : y.1 ∈ (positions schema).map Prod.fst := List.mem_map_of_mem hy
    simp only [hways, List.mem_cons, List.not_mem_nil, or_false] at hway
    rcases hway with hway | hway | hway | hway | hway <;> rw [hway] <;>
      simp [Branch.Plain, isSeparator]
  have hfails : (freshRun [] rs none root).1 =
      .error (.fault (.located "$." (.capacity 1 2))) := rfl
  obtain ⟨-, -, hpaths⟩ := compile_paths hkeyed h
  have hmem : "$." ∈ root.walk.map Node.path := List.mem_cons_of_mem _ List.mem_cons_self
  exact ⟨hkeyed, h, hnames, hfails, List.count_eq_one_of_mem (hpaths hnames).1 hmem⟩

end Tree

end Reshape
