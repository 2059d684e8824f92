import Reshape.Proofs.Tree.Transparency

/-! Where the failure of a run comes from: the token cancels it before a node, or the own step of a
node fails because its representation has no slot or cannot be built, because its strategy fails, or
because what it extracts cannot hold its children. -/

namespace Reshape.Tree

/-- What the own step of a node can raise on a document. -/
inductive Raises (raw : Text.Bytes) (rs : List Representation) (n : Node) : Failure → Prop
  | request {name : String} : n.strategy.representation = some name → (∀ x ∈ rs, x.name ≠ name) →
    Raises raw rs n (.fault (.representation name "unknown representation"))
  | build {x : Representation} {k : Nat} {b : BuildFault} : x ∈ rs →
    n.strategy.representation = some x.name → x.build k raw = .error b →
    Raises raw rs n (b.report x.name)
  | extract {d : Value} {f : Failure} : n.strategy.extract d = .error f → Raises raw rs n f
  | fit {v : Value} {f : Failure} : fits n.children v = .error f → Raises raw rs n f

/-- How a run of a node can fail. -/
inductive Ends (raw : Text.Bytes) (rs : List Representation) (n : Node) : Failure → Prop
  | cancelled {m : Node} : m ∈ n.walk → Ends raw rs n (cancelledAt m.path)
  | step {m : Node} {f : Failure} : m ∈ n.walk → Raises raw rs m f →
    Ends raw rs n (f.locate m.path)

/-- Where a run of a node stops, and the session that it leaves. -/
inductive Stops (raw : Text.Bytes) (rs : List Representation) (n : Node) : Failure → Session → Prop
  | cancelled {m : Node} {t : Session} : m ∈ n.walk → Stops raw rs n (cancelledAt m.path) t
  | step {m : Node} {t : Session} {f : Failure} : m ∈ n.walk → t.cache.Over raw rs →
    ownStep m t = .error f → Stops raw rs n (f.locate m.path) (after m t)

variable {raw : Text.Bytes} {rs : List Representation}

theorem Stops.of_child {n : Node} {x : Branch × Node} (hx : x ∈ n.children.filled) {f : Failure}
    {t : Session} (h : Stops raw rs x.2 f t) : Stops raw rs n f t := by
  cases h with
  | cancelled hm => exact .cancelled (Node.mem_walk_of_child hx hm)
  | step hm hc hf => exact .step (Node.mem_walk_of_child hx hm) hc hf

/-- A located fault names a place, here or further inside. -/
theorem locate_eq_fault {f : Failure} {path : String} {g : Fault} (h : f.locate path = .fault g) :
    ∃ p cause, g = .located p cause := by
  cases f with
  | crash c => cases h
  | fault f =>
    obtain rfl := Failure.fault.inj h
    unfold Fault.locate
    split_ifs with ha
    · cases f <;> first | exact ⟨_, _, rfl⟩ | cases ha
    · exact ⟨path, f, rfl⟩

theorem fits_eq_error {c : Children} {v : Value} {f : Failure} (h : fits c v = .error f) :
    (∃ expected, f = .fault (.cast expected v.kind)) ∨
      ∃ length required, f = .fault (.capacity length required) := by
  unfold fits at h
  split at h
  · cases h
  · cases h
  · exact .inl ⟨_, (Except.error.inj h).symm⟩
  · split_ifs at h
    exact .inr ⟨_, _, (Except.error.inj h).symm⟩
  · exact .inl ⟨_, (Except.error.inj h).symm⟩

theorem extraction_raises {n : Node} {s : Session} (hc : s.cache.Over raw rs) {f : Failure}
    (h : extraction n s = .error f) : Raises raw rs n f := by
  rw [extraction, extractFrom_eq] at h
  cases hr : n.strategy.representation with
  | none =>
    rw [hr] at h
    exact .extract h
  | some name =>
    simp only [hr] at h
    cases hg : (s.cache.get name).1 with
    | ok d =>
      rw [hg] at h
      exact .extract h
    | error g =>
      obtain rfl : g = f := by simpa [hg, Except.bind] using h
      rcases hc.get_eq_error hg with ⟨hno, rfl⟩ | ⟨x, hx, rfl, k, b, hb, rfl⟩
      · exact .request hr hno
      · exact .build hx hr hb

theorem ownStep_raises {n : Node} {s : Session} (hc : s.cache.Over raw rs) {f : Failure}
    (h : ownStep n s = .error f) : Raises raw rs n f := by
  unfold ownStep at h
  cases he : extraction n s with
  | error g =>
    obtain rfl : g = f := by simpa [he, Except.bind] using h
    exact extraction_raises hc he
  | ok e =>
    simp only [he, Except.bind] at h
    split_ifs at h
    cases hf : fits n.children e.1 with
    | ok _ => simp [hf, Except.map] at h
    | error g =>
      obtain rfl : g = f := by simpa [hf, Except.map] using h
      exact .fit hf

/-- A run that fails stops at a node of its tree, and nothing is done after that. -/
theorem bind_stops (token : Option CancelToken) (n : Node) {s : Session} (hc : s.cache.Over raw rs)
    {f : Failure} (h : (bind token n s).1 = .error f) : Stops raw rs n f (bind token n s).2 := by
  have hasked : ∀ {s t b}, poll token s = (b, t) → s.cache.Over raw rs → t.cache.Over raw rs :=
    fun hp hs => (kept_of_poll token hp).1 ▸ hs
  refine (run_induction token
    (P := fun n s o => s.cache.Over raw rs →
      o.2.cache.Over raw rs ∧ ∀ f, o.1 = .error f → Stops raw rs n f o.2)
    (Q := fun l s o => s.cache.Over raw rs →
      o.2.cache.Over raw rs ∧ ∀ f, o.1 = .error f → ∃ x ∈ l, Stops raw rs x.2 f o.2)
    ?cancelled ?faulty ?stepped ?nil ?failed ?stopped ?gathered).1 n s hc |>.2 f h
  case cancelled =>
    intro n s t hp hs
    refine ⟨hasked hp hs, fun f hf => ?_⟩
    obtain rfl := Except.error.inj hf
    exact .cancelled n.self_mem_walk
  case faulty =>
    intro n s t f hp ho hs
    have ht := hasked hp hs
    refine ⟨ht.later (later_extractFrom _ _), fun g hg => ?_⟩
    obtain rfl := Except.error.inj hg
    exact .step n.self_mem_walk ht ho
  case stepped =>
    intro n s t e o hp ho hq hs
    obtain ⟨hu, hf⟩ := hq ((hasked hp hs).later (later_extractFrom _ _))
    rw [snd_finish]
    refine ⟨hu, fun f h => ?_⟩
    rcases o with ⟨g | xs, u⟩
    · obtain rfl : g = f := Except.error.inj h
      obtain ⟨x, hx, hstop⟩ := hf g rfl
      exact hstop.of_child (below_subset n e x hx)
    · simp [finish] at h
  case nil => exact fun s hs => ⟨hs, by simp⟩
  case failed =>
    intro x rest s f t hx hs
    obtain ⟨ht, hf⟩ := hx hs
    refine ⟨ht, fun g hg => ⟨x, List.mem_cons_self, hf g ?_⟩⟩
    rw [Except.error.inj hg]
  case stopped =>
    intro x rest s r t f u hx hr hs
    obtain ⟨hu, hf⟩ := hr (hx hs).1
    refine ⟨hu, fun g hg => ?_⟩
    obtain ⟨y, hy, hstop⟩ := hf g hg
    exact ⟨y, List.mem_cons_of_mem _ hy, hstop⟩
  case gathered => exact fun x rest s r t xs u hx hr hs => ⟨(hr (hx hs).1).1, by simp⟩

/-- A run fails by its token, or by the own step of one of its nodes. -/
theorem bind_ends (token : Option CancelToken) (n : Node) {s : Session} (hc : s.cache.Over raw rs)
    {f : Failure} (h : (bind token n s).1 = .error f) : Ends raw rs n f := by
  have hstops := bind_stops token n hc h
  generalize (bind token n s).2 = t at hstops
  cases hstops with
  | cancelled hm => exact .cancelled hm
  | step hm hc hf => exact .step hm (ownStep_raises hc hf)

/-- Only nodes of the tree are extracted. -/
theorem mem_walk_of_started (token : Option CancelToken) (root : Node) (c : Cache) :
    ∀ n ∈ (bind token root (.ofCache c)).2.started, n ∈ root.walk := by
  obtain ⟨l, hl, hwalk⟩ := started_bind token root (.ofCache c)
  rw [hl]
  exact hwalk

end Reshape.Tree
