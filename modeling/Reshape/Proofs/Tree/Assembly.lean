import Reshape.Proofs.Tree.OwnStep

/-! What a run without a token puts together. A node is visited if it is the root, or a child of a
visited node that has a match. `visited_assembles` says of every visited node what its value holds
and when it is bound, and that a bound node's value stands at its place in the value of the root. -/

namespace Reshape.Tree

/-- Nodes bound one after the other, each with the session in which its turn comes. -/
def turns : List (Branch × Node) → Session → List (Branch × Node × Session)
  | [], _ => []
  | (b, n) :: rest, s => (b, n, s) :: turns rest (bind none n s).2

/-- The run of a node comes to another one, below it at the given path, in the given session. -/
inductive Visits : Node → Session → List Branch → Node → Session → Prop
  | root (n : Node) (s : Session) : Visits n s [] n s
  | child {n c m : Node} {s t u : Session} {e : Extraction} {b : Branch} {bs : List Branch} :
    extraction n s = .ok e → e ≠ (.null, false) →
      (b, c, t) ∈ turns n.children.filled (after n s) → Visits c t bs m u →
      Visits n s (b :: bs) m u

/-- The child at a place is visited and bound. -/
def Binds (n : Node) (s : Session) (b : Branch) (w : Value) : Prop :=
  ∃ c t, Visits n s [b] c t ∧ (bind none c t).1 = .ok (w, true)

/-- How a node's result comes from its own extraction `e` and from what is visited below it. -/
structure Assembles (n : Node) (s : Session) (e r : Extraction) : Prop where
  /-- All children of a node with a match are visited. -/
  visited : e ≠ (.null, false) → ∀ x ∈ n.children.filled, ∃ t, Visits n s [x.1] x.2 t
  returned : ∀ b c t, Visits n s [b] c t → ∃ q, (bind none c t).1 = .ok q
  /-- Bound is what is present itself or holds something present. -/
  bound : r.2 = true ↔ e.2 = true ∨
    ∃ b bs m t v, Visits n s (b :: bs) m t ∧ extraction m t = .ok (v, true)
  /-- Without children, or without a match, the extracted value is the result. -/
  kept : n.isLeaf = true ∨ e = (.null, false) → r.1 = e.1
  /-- The old keys come first, then the names of bound children; only those get new values. -/
  named : ∀ nodes, n.children = .named nodes → e ≠ (.null, false) →
    ∃ es vs ks, e.1 = .object es ∧ r.1 = .object vs ∧ Entries.keys vs = Entries.keys es ++ ks ∧
      ks.Sublist (Entries.keys nodes) ∧
      (∀ k, k ∈ ks ↔ k ∉ Entries.keys es ∧ ∃ w, Binds n s (.name k) w) ∧
      (∀ k w, Binds n s (.name k) w → Entries.find? k vs = some w) ∧
      ∀ k, (∀ w, ¬ Binds n s (.name k) w) → Entries.find? k vs = Entries.find? k es
  /-- The length stays; only the slots of bound children get new items. -/
  indexed : ∀ slots, n.children = .indexed slots → e ≠ (.null, false) →
    ∃ items vs, e.1 = .array items ∧ slots.length ≤ items.length ∧ r.1 = .array vs ∧
      vs.length = items.length ∧ (∀ i w, Binds n s (.slot i) w → vs[i]? = some w) ∧
      ∀ i, (∀ w, ¬ Binds n s (.slot i) w) → vs[i]? = items[i]?

/-! ### Runs that return -/

theorem fst_finish_eq_ok {e r : Extraction} {o : Outcome (List (Branch × Value)) × Session}
    (h : (finish e o).1 = .ok r) :
    ∃ xs, o.1 = .ok xs ∧ r = (e.1.write xs, e.2 || !xs.isEmpty) := by
  rcases o with ⟨_ | xs, s⟩
  · simp [finish] at h
  · exact ⟨xs, rfl, by simpa [finish, eq_comm] using h⟩

/-- A run that returns makes its own step, gathers, and writes. -/
theorem fst_bind_eq_ok {n : Node} {s : Session} {r : Extraction} (h : (bind none n s).1 = .ok r) :
    ∃ e xs, ownStep n s = .ok e ∧ (gather none (below n e) (after n s)).1 = .ok xs ∧
      r = (e.1.write xs, e.2 || !xs.isEmpty) := by
  simp only [bind_eq, poll] at h
  cases ho : ownStep n s with
  | error f => simp [ho] at h
  | ok e =>
    rw [ho] at h
    obtain ⟨xs, hx, hr⟩ := fst_finish_eq_ok h
    exact ⟨e, xs, rfl, hx, hr⟩

theorem fst_gather_eq_ok {l : List (Branch × Node)} {s : Session} {xs : List (Branch × Value)}
    (h : (gather none l s).1 = .ok xs) :
    (∀ b c t, (b, c, t) ∈ turns l s → ∃ q, (bind none c t).1 = .ok q) ∧
      (∀ b w, (b, w) ∈ xs ↔ ∃ c t, (b, c, t) ∈ turns l s ∧ (bind none c t).1 = .ok (w, true)) ∧
      (xs.map Prod.fst).Sublist (l.map Prod.fst) := by
  induction l generalizing s xs with
  | nil =>
    obtain rfl : [] = xs := by simpa [gather] using h
    simp [turns]
  | cons x rest ih =>
    rcases x with ⟨b, n⟩
    simp only [gather] at h
    rcases hn : bind none n s with ⟨f | ⟨v, bound⟩, t⟩
    · simp [hn] at h
    simp only [hn] at h
    rcases hg : gather none rest t with ⟨f | ys, u⟩
    · simp [hg] at h
    obtain ⟨hret, hmem, hsub⟩ := ih (congrArg Prod.fst hg)
    obtain rfl : (if bound then (b, v) :: ys else ys) = xs := by simpa [hg] using h
    have hturns : turns ((b, n) :: rest) s = (b, n, s) :: turns rest t := by simp [turns, hn]
    rw [hturns]
    refine ⟨?_, ?_, ?_⟩
    · intro b' c u' hc
      rcases List.mem_cons.mp hc with hc | hc
      · obtain ⟨rfl, rfl, rfl⟩ : b' = b ∧ c = n ∧ u' = s := by simpa using hc
        exact ⟨_, congrArg Prod.fst hn⟩
      · exact hret b' c u' hc
    · intro b' w
      have hxs : (b', w) ∈ (if bound then (b, v) :: ys else ys) ↔
          (bound = true ∧ b' = b ∧ w = v) ∨ (b', w) ∈ ys := by cases bound <;> simp
      rw [hxs, hmem]
      constructor
      · rintro (⟨rfl, rfl, rfl⟩ | ⟨c, u', hc, hw⟩)
        · exact ⟨n, s, List.mem_cons_self, congrArg Prod.fst hn⟩
        · exact ⟨c, u', List.mem_cons_of_mem _ hc, hw⟩
      · rintro ⟨c, u', hc, hw⟩
        rcases List.mem_cons.mp hc with hc | hc
        · obtain ⟨rfl, rfl, rfl⟩ : b' = b ∧ c = n ∧ u' = s := by simpa using hc
          obtain ⟨rfl, rfl⟩ : v = w ∧ bound = true := by simpa [hn] using hw
          exact .inl ⟨rfl, rfl, rfl⟩
        · exact .inr ⟨c, u', hc, hw⟩
    · cases bound with
      | true => exact hsub.cons_cons b
      | false => exact hsub.cons b

theorem mem_turns {l : List (Branch × Node)} {s : Session} {x : Branch × Node} (hx : x ∈ l) :
    ∃ t, (x.1, x.2, t) ∈ turns l s := by
  induction l generalizing s with
  | nil => simp at hx
  | cons y rest ih =>
    rcases List.mem_cons.mp hx with rfl | hx'
    · exact ⟨s, List.mem_cons_self⟩
    · obtain ⟨t, ht⟩ := ih (s := (bind none y.2 s).2) hx'
      exact ⟨t, List.mem_cons_of_mem _ ht⟩

theorem mem_of_mem_turns {l : List (Branch × Node)} {s t : Session} {b : Branch} {c : Node}
    (h : (b, c, t) ∈ turns l s) : (b, c) ∈ l := by
  induction l generalizing s with
  | nil => simp [turns] at h
  | cons y rest ih =>
    rcases List.mem_cons.mp h with h' | h'
    · obtain ⟨rfl, rfl, rfl⟩ : b = y.1 ∧ c = y.2 ∧ t = s := by simpa using h'
      exact List.mem_cons_self
    · exact List.mem_cons_of_mem _ (ih h')

/-- What the run of a node with the own extraction `e` gathers below it. -/
structure Gathers (n : Node) (s : Session) (e : Extraction) (xs : List (Branch × Value)) : Prop where
  extracted : extraction n s = .ok e
  fits : e ≠ (.null, false) → Tree.fits n.children e.1 = .ok ()
  returned : e ≠ (.null, false) →
    ∀ b c t, (b, c, t) ∈ turns n.children.filled (after n s) → ∃ q, (bind none c t).1 = .ok q
  mem : ∀ b w, (b, w) ∈ xs ↔ Binds n s b w
  places : (xs.map Prod.fst).Sublist (n.children.filled.map Prod.fst)
  skipped : n.isLeaf = true ∨ e = (.null, false) → xs = []

theorem visits_child_iff {n c : Node} {s t : Session} {b : Branch} {e : Extraction}
    (he : extraction n s = .ok e) :
    Visits n s [b] c t ↔ e ≠ (.null, false) ∧ (b, c, t) ∈ turns n.children.filled (after n s) := by
  constructor
  · intro h
    cases h with
    | child hq hne ht hv =>
      obtain rfl := Except.ok.inj (he.symm.trans hq)
      cases hv
      exact ⟨hne, ht⟩
  · rintro ⟨hne, ht⟩
    exact .child he hne ht (.root c t)

theorem gathers_of_bind {n : Node} {s : Session} {r : Extraction} (h : (bind none n s).1 = .ok r) :
    ∃ e xs, Gathers n s e xs ∧ r = (e.1.write xs, e.2 || !xs.isEmpty) := by
  obtain ⟨e, xs, ho, hg, hr⟩ := fst_bind_eq_ok h
  obtain ⟨he, hf⟩ := ownStep_eq_ok.mp ho
  obtain ⟨hret, hmem, hsub⟩ := fst_gather_eq_ok hg
  refine ⟨e, xs, ⟨he, hf, ?_, ?_, ?_, ?_⟩, hr⟩
  · intro hne
    rwa [below_eq hne] at hret
  · intro b w
    rw [hmem]
    by_cases hne : e = (.null, false)
    · subst hne
      simp [turns, Binds, visits_child_iff he]
    · rw [below_eq hne]
      simp [Binds, visits_child_iff he, hne]
  · by_cases hne : e = (.null, false)
    · subst hne
      have : xs.map Prod.fst = [] := by simpa using hsub
      simp [this]
    · rwa [below_eq hne] at hsub
  · intro hno
    have hb : below n e = [] := by
      rcases hno with hl | rfl
      · cases hc : n.children <;> simp [Node.isLeaf, hc] at hl
        simp [below, hc, Children.filled]
      · exact below_null n
    simpa [hb] using hsub

/-! ### Presence -/

/-- A node is bound if it or something below it is present. -/
theorem bound_iff (n : Node) (s : Session) {r : Extraction} (h : (bind none n s).1 = .ok r) :
    r.2 = true ↔ ∃ bs m t v, Visits n s bs m t ∧ extraction m t = .ok (v, true) := by
  induction n using Node.ind generalizing s r with
  | h n ih =>
    obtain ⟨e, xs, hg, rfl⟩ := gathers_of_bind h
    have hcons : (!xs.isEmpty) = true ↔ ∃ b w, Binds n s b w := by
      simp only [← hg.mem]
      cases xs with
      | nil => simp
      | cons x rest =>
        simp only [List.isEmpty_cons, Bool.not_false, true_iff]
        exact ⟨x.1, x.2, List.mem_cons_self⟩
    simp only [Bool.or_eq_true, hcons]
    constructor
    · rintro (he | ⟨b, w, c, t, hv, hw⟩)
      · exact ⟨[], n, s, e.1, .root n s, by rw [hg.extracted, ← he]⟩
      · obtain ⟨hne, ht⟩ := (visits_child_iff hg.extracted).mp hv
        obtain ⟨bs, m, u, v, hm, hp⟩ := (ih (b, c) (mem_of_mem_turns ht) t hw).mp rfl
        exact ⟨b :: bs, m, u, v, .child hg.extracted hne ht hm, hp⟩
    · rintro ⟨bs, m, u, v, hm, hp⟩
      cases hm with
      | root =>
        left
        have := Except.ok.inj (hg.extracted.symm.trans hp)
        simp [this]
      | @child _ c _ _ t _ q b bs hq hne ht hm =>
        obtain rfl := Except.ok.inj (hg.extracted.symm.trans hq)
        obtain ⟨⟨w, p⟩, hw⟩ := hg.returned hne b c t ht
        have hb : p = true := (ih (b, c) (mem_of_mem_turns ht) t hw).mpr ⟨bs, m, u, v, hm, hp⟩
        subst hb
        exact .inr ⟨b, w, c, t, .child hq hne ht (.root c t), hw⟩

/-! ### Results -/

section Results

variable {n : Node} {s : Session} {e : Extraction} {xs : List (Branch × Value)}

theorem Gathers.named (hg : Gathers n s e xs) (hd : (xs.map Prod.fst).Nodup)
    {nodes : List (Key × Node)} (hc : n.children = .named nodes) (hne : e ≠ (.null, false)) :
    ∃ es vs ks, e.1 = .object es ∧ e.1.write xs = .object vs ∧
      Entries.keys vs = Entries.keys es ++ ks ∧ ks.Sublist (Entries.keys nodes) ∧
      (∀ k, k ∈ ks ↔ k ∉ Entries.keys es ∧ ∃ w, Binds n s (.name k) w) ∧
      (∀ k w, Binds n s (.name k) w → Entries.find? k vs = some w) ∧
      ∀ k, (∀ w, ¬ Binds n s (.name k) w) → Entries.find? k vs = Entries.find? k es := by
  obtain ⟨es, he⟩ : ∃ es, e.1 = .object es := by
    have hf := hg.fits hne
    rw [hc] at hf
    cases hv : e.1 <;> simp [hv, Tree.fits] at hf
    exact ⟨_, rfl⟩
  obtain ⟨vs, hw⟩ := Value.write_object xs es
  have hsub : (Value.names xs).Sublist (Entries.keys nodes) := by
    have h := hg.places.filterMap Branch.name?
    rw [hc] at h
    simpa [Children.filled, Entries.keys, Value.names, Function.comp_def, Branch.name?] using h
  refine ⟨es, vs, _, he, by rw [he, hw], Value.keys_write hd hw, List.filter_sublist.trans hsub,
    ?_, ?_, ?_⟩
  · intro k
    simp [Value.mem_names, hg.mem, and_comm]
  · intro k w hb
    exact Value.find?_write_of_mem hd hw ((hg.mem _ _).mpr hb)
  · intro k hb
    apply Value.find?_write_of_not_mem hw
    intro hk
    obtain ⟨w, hx⟩ := Value.mem_names.mp hk
    exact hb w ((hg.mem _ _).mp hx)

theorem Gathers.indexed (hg : Gathers n s e xs) (hd : (xs.map Prod.fst).Nodup)
    {slots : List (Option Node)} (hc : n.children = .indexed slots) (hne : e ≠ (.null, false)) :
    ∃ items vs, e.1 = .array items ∧ slots.length ≤ items.length ∧ e.1.write xs = .array vs ∧
      vs.length = items.length ∧ (∀ i w, Binds n s (.slot i) w → vs[i]? = some w) ∧
      ∀ i, (∀ w, ¬ Binds n s (.slot i) w) → vs[i]? = items[i]? := by
  obtain ⟨items, he, hl⟩ : ∃ items, e.1 = .array items ∧ slots.length ≤ items.length := by
    have hf := hg.fits hne
    rw [hc] at hf
    cases hv : e.1 <;> simp [hv, Tree.fits] at hf
    exact ⟨_, rfl, hf⟩
  obtain ⟨vs, hw, hvl⟩ := Value.write_array xs items
  refine ⟨items, vs, he, hl, by rw [he, hw], hvl, ?_, ?_⟩
  · intro i w hb
    have hx := (hg.mem _ _).mpr hb
    have hi : i < slots.length := by
      obtain ⟨c, t, hv, _⟩ := hb
      have hm := mem_of_mem_turns ((visits_child_iff hg.extracted).mp hv).2
      rw [hc] at hm
      obtain ⟨j, hj, hs⟩ := Children.mem_filledFrom.mp hm
      obtain ⟨hlt, _⟩ := List.getElem?_eq_some_iff.mp hs
      simp only [Branch.slot.injEq] at hj
      omega
    exact Value.getElem?_write_of_mem hd hw (by omega) hx
  · intro i hb
    apply Value.getElem?_write_of_not_mem hw
    intro w hx
    exact hb w ((hg.mem _ _).mp hx)

end Results

theorem assembles_of_bind {n : Node} {s : Session} {r : Extraction} (hd : n.Distinct)
    (h : (bind none n s).1 = .ok r) : ∃ e, extraction n s = .ok e ∧ Assembles n s e r := by
  obtain ⟨e, xs, hg, rfl⟩ := gathers_of_bind h
  have hx : (xs.map Prod.fst).Nodup := hd.nodup_filled.sublist hg.places
  refine ⟨e, hg.extracted, ?_, ?_, ?_, ?_, fun _ => hg.named hx, fun _ => hg.indexed hx⟩
  · intro hne x hxm
    obtain ⟨t, ht⟩ := mem_turns (s := after n s) hxm
    exact ⟨t, (visits_child_iff hg.extracted).mpr ⟨hne, ht⟩⟩
  · intro b c t hv
    obtain ⟨hne, ht⟩ := (visits_child_iff hg.extracted).mp hv
    exact hg.returned hne b c t ht
  · rw [bound_iff n s h]
    constructor
    · rintro ⟨_ | ⟨b, bs⟩, m, t, v, hv, hp⟩
      · cases hv
        have := Except.ok.inj (hg.extracted.symm.trans hp)
        exact .inl (by simp [this])
      · exact .inr ⟨b, bs, m, t, v, hv, hp⟩
    · rintro (he | ⟨b, bs, m, t, v, hv, hp⟩)
      · exact ⟨[], n, s, e.1, .root n s, by rw [hg.extracted, ← he]⟩
      · exact ⟨b :: bs, m, t, v, hv, hp⟩
  · intro hno
    simp [hg.skipped hno]

/-- What a bound child gives stands at its place. -/
theorem Assembles.child?_eq {n : Node} {s : Session} {e r : Extraction} (ha : Assembles n s e r)
    (he : extraction n s = .ok e) {b : Branch} {w : Value} (hb : Binds n s b w) :
    r.1.child? b = some w := by
  obtain ⟨c, t, hv, -⟩ := id hb
  obtain ⟨hne, ht⟩ := (visits_child_iff he).mp hv
  have hm := mem_of_mem_turns ht
  cases hc : n.children with
  | leaf => simp [hc, Children.filled] at hm
  | named nodes =>
    obtain ⟨es, vs, ks, -, hr, -, -, -, hset, -⟩ := ha.named nodes hc hne
    rw [hc] at hm
    obtain ⟨x, -, hx⟩ := List.mem_map.mp hm
    obtain ⟨rfl, -⟩ : .name x.1 = b ∧ x.2 = c := by simpa using hx
    rw [hr]
    exact hset x.1 w hb
  | indexed slots =>
    obtain ⟨items, vs, -, -, hr, -, hset, -⟩ := ha.indexed slots hc hne
    rw [hc] at hm
    obtain ⟨j, rfl, -⟩ := Children.mem_filledFrom.mp hm
    rw [hr]
    exact hset _ w hb

/-- In a run that returns, every visited node returns what its own extraction and its visited
children make, and what a bound node returns stands at its place in the value of the root. -/
theorem visited_assembles {root : Node} {s₀ : Session} {r₀ : Extraction} (hd : root.Distinct)
    (h : (bind none root s₀).1 = .ok r₀) {bs : List Branch} {n : Node} {s : Session}
    (hv : Visits root s₀ bs n s) :
    ∃ e r, extraction n s = .ok e ∧ (bind none n s).1 = .ok r ∧ Assembles n s e r ∧
      (r.2 = true → r₀.2 = true ∧ r₀.1.at? bs = some r.1) := by
  induction hv generalizing r₀ with
  | root n s =>
    obtain ⟨e, he, ha⟩ := assembles_of_bind hd h
    exact ⟨e, r₀, he, h, ha, fun hb => ⟨hb, rfl⟩⟩
  | @child n c m s t u e b bs he hne ht hv ih =>
    obtain ⟨e', he', ha⟩ := assembles_of_bind hd h
    obtain rfl := Except.ok.inj (he.symm.trans he')
    have hvc : Visits n s [b] c t := .child he hne ht (.root c t)
    obtain ⟨q, hq⟩ := ha.returned b c t hvc
    obtain ⟨eₘ, r, hem, hr, hasm, hplace⟩ := ih (hd.child (mem_of_mem_turns ht)) hq
    refine ⟨eₘ, r, hem, hr, hasm, ?_⟩
    intro hb
    obtain ⟨hqb, hat⟩ := hplace hb
    -- what makes the child bound lies below the root as well
    obtain ⟨bs', m', u', v, hv', hp⟩ := (bound_iff c t hq).mp hqb
    have hroot : r₀.2 = true := ha.bound.mpr (.inr ⟨b, bs', m', u', v, .child he hne ht hv', hp⟩)
    have hbinds : Binds n s b q.1 := ⟨c, t, hvc, by rw [hq, ← hqb]⟩
    exact ⟨hroot, by simp [Value.at?, ha.child?_eq he hbinds, hat]⟩

/-- A sequence below a name keeps its first slot and takes the bound child's value into its second. -/
theorem assembles_second_slot :
    let item := Node.mk "$.a[1]" ⟨"", "", none, .custom fun _ => .ok (.text "x", true)⟩ .leaf
    let seed := Node.mk "$.a" ⟨"slice", "2", none, .sequence 2⟩ (.indexed [none, some item])
    let root := Node.mk "$" .mapping (.named [("b", .mk "$.b" .absent .leaf), ("a", seed)])
    let s₀ := Session.ofCache (Cache.ofDocument [] [])
    root.Distinct ∧ ∃ s r₀ r, (bind none root s₀).1 = .ok r₀ ∧ Visits root s₀ [.name "a"] seed s ∧
      Assembles seed s (.array [.null, .null], false) r ∧ r₀.2 = true ∧
      r₀.1.at? [.name "a"] = some r.1 ∧ r.1 = .array [.null, .text "x"] := by
  intro item seed root s₀
  have hd : root.Distinct := by
    intro n hn nodes hc
    simp only [root, seed, item, Node.walk, Node.walkChildren, Node.walkNamed, Node.walkSlots,
      List.append_nil, List.cons_append, List.nil_append, List.mem_cons, List.not_mem_nil,
      or_false] at hn
    rcases hn with rfl | rfl | rfl | rfl
    · obtain rfl := Children.named.inj hc
      decide
    all_goals simp [Node.children] at hc
  have hr₀ : (bind none root s₀).1 = .ok (.object [("a", .array [.null, .text "x"])], true) := rfl
  have hturn : (.name "a", seed, (bind none (.mk "$.b" .absent .leaf) (after root s₀)).2) ∈
      turns root.children.filled (after root s₀) := List.mem_cons_of_mem _ List.mem_cons_self
  have hv := Visits.child (e := (.object [], false)) rfl (by simp) hturn (.root seed _)
  obtain ⟨e, r, he, hr, ha, hplace⟩ := visited_assembles hd hr₀ hv
  obtain rfl : (.array [.null, .null], false) = e := Except.ok.inj he
  obtain rfl : (.array [.null, .text "x"], true) = r := Except.ok.inj hr
  obtain ⟨hb, hat⟩ := hplace rfl
  exact ⟨hd, _, _, _, hr₀, hv, ha, hb, hat, rfl⟩

end Reshape.Tree
