import Reshape.Binder
import Reshape.Proofs.Registry
import Reshape.Proofs.Tree.Causes
import Reshape.Proofs.Tree.Exactness

/-! Binders of built registries. The strategies of a compiled tree come from the registry for whose
representations the cache of every bind has slots, so no strategy asks for a representation without a
slot. -/

namespace Reshape

/-! ### Unknown representations -/

/-- The failure of a request for a representation without a slot, however it is located. -/
inductive Failure.Unknown : Failure → Prop
  | request (name : String) : Unknown (.fault (.representation name "unknown representation"))
  | located (path : String) {f : Fault} : Unknown (.fault f) → Unknown (.fault (.located path f))

theorem Failure.Unknown.of_locate {f : Failure} {path : String} (h : (f.locate path).Unknown) :
    f.Unknown := by
  cases f with
  | crash c => exact h
  | fault f =>
    simp only [Failure.locate, Fault.locate] at h
    split_ifs at h
    · exact h
    · cases h with
      | located _ h => exact h

namespace Tree

/-- Whether there is a slot for what a strategy reads. -/
def Served (rs : List Representation) (strategy : Strategy) : Prop :=
  ∀ name, strategy.representation = some name → ∃ x ∈ rs, x.name = name

/-- The nodes that are compiled with a registry read no representation or one of the registry. -/
theorem served_of_compile {r : Registry} {s : Settings} {schema : Value} {root : Node} (hr : r.Closed)
    (h : compile schema r s = .ok root) {n : Node} (hn : n ∈ root.walk) :
    Served r.representations n.strategy := by
  intro name hname
  rcases strategy_of_compile h hn with ha | ⟨family, e, hc⟩
  · simp [ha, Strategy.absent] at hname
  · exact Registry.hasRepresentation_iff.mp (hr.of_create hc hname)

variable {raw : Text.Bytes} {rs : List Representation}

theorem not_unknown_of_fits {c : Children} {v : Value} {f : Failure} (h : fits c v = .error f) :
    ¬ f.Unknown := by
  intro hu
  rcases fits_eq_error h with ⟨_, rfl⟩ | ⟨_, _, rfl⟩ <;> cases hu

/-- Where every strategy is served, only a builder or a strategy of its own accord can say that a
representation is unknown. -/
theorem Ends.of_unknown {root : Node} {f : Failure} (h : Ends raw rs root f)
    (hs : ∀ n ∈ root.walk, Served rs n.strategy) (hu : f.Unknown) :
    ∃ g : Failure, g.Unknown ∧ ((∃ x ∈ rs, ∃ k b, x.build k raw = .error b ∧ b.report x.name = g) ∨
      ∃ n ∈ root.walk, ∃ d, n.strategy.extract d = .error g) := by
  cases h with
  | cancelled hm => cases hu
  | @step n g hn hg =>
    refine ⟨g, hu.of_locate, ?_⟩
    cases hg with
    | request hr hno =>
      obtain ⟨x, hx, hname⟩ := hs n hn _ hr
      exact absurd hname (hno x hx)
    | build hx hr hb => exact .inl ⟨_, hx, _, _, hb, rfl⟩
    | extract he => exact .inr ⟨n, hn, _, he⟩
    | fit hf => exact absurd hu.of_locate (not_unknown_of_fits hf)

end Tree

/-! ### Compiled binders -/

namespace Binder

variable {source : SchemaSource} {s : Settings} {r : Registry} {b : Binder}

/-- The dialect that a schema is checked in: the one it declares, or that of the settings. -/
def dialectOf (schema : Value) (s : Settings) : Except Crash Dialect := do
  return (← Schema.declaredDialect? schema).getD s.dialect

/-- The entries of a schema and its dialect, once its form has been checked. -/
def checked (source : SchemaSource) (s : Settings) : Outcome (List (Key × Value) × Dialect) := do
  let es ← source.entries
  let d ← (dialectOf (.object es) s).mapError .crash
  if ← (Schema.isSchema d (.object es)).mapError .crash then return (es, d) else throw invalidSchema

theorem checked_eq_ok {es : List (Key × Value)} {d : Dialect}
    (h : checked source s = .ok (es, d)) :
    source.entries = .ok es ∧ Schema.isSchema d (.object es) = .ok true := by
  unfold checked at h
  obtain ⟨fs, hentries, h⟩ := Except.bind_eq_ok.mp h
  obtain ⟨e, -, h⟩ := Except.bind_eq_ok.mp h
  obtain ⟨_ | _, hvalid, h⟩ := Except.bind_eq_ok.mp h
  · cases h
  · obtain ⟨rfl, rfl⟩ := Prod.mk.inj (Except.ok.inj h)
    exact ⟨hentries, Except.mapError_eq_ok.mp hvalid⟩

/-- A binder is compiled in stages: the form of the schema, the tree, and a validator if there is to
be one. -/
theorem compile_eq : compile source s r = (do
    let (es, d) ← checked source s
    let root ← Tree.compile (.object es) r s
    if s.validateOutput then
      let validator ← (Schema.Validator.ofSchema d s.keyword false (.object es)).mapError .crash
      return ⟨root, r, s, some validator⟩
    else return ⟨root, r, s, none⟩) := by
  unfold compile checked dialectOf
  rcases source.entries with f | es
  · rfl
  · rcases hd : Schema.declaredDialect? (.object es) with c | declared
    · simp only [hd, Except.ok_bind, Except.error_bind, Except.mapError]
    · simp only [hd, Except.ok_bind, Except.mapError, pure, Except.pure]
      rcases Schema.isSchema (declared.getD s.dialect) (.object es) with c | _ | _
      · rfl
      · rfl
      · show (Tree.compile (.object es) r s >>= _) = (Tree.compile (.object es) r s >>= _)
        refine bind_congr fun root => ?_
        cases s.validateOutput <;> rfl

theorem compile_eq_ok (h : compile source s r = .ok b) :
    b.registry = r ∧ ∃ es, source.entries = .ok es ∧ Tree.compile (.object es) r s = .ok b.root := by
  rw [compile_eq] at h
  obtain ⟨⟨es, d⟩, hchecked, h⟩ := Except.bind_eq_ok.mp h
  obtain ⟨root, hroot, h⟩ := Except.bind_eq_ok.mp h
  have hb : b.registry = r ∧ b.root = root := by
    split_ifs at h
    · obtain ⟨x, -, h⟩ := Except.bind_eq_ok.mp h
      obtain rfl := Except.ok.inj h
      exact ⟨rfl, rfl⟩
    · obtain rfl := Except.ok.inj h
      exact ⟨rfl, rfl⟩
  obtain ⟨rfl, rfl⟩ := hb
  exact ⟨rfl, es, (checked_eq_ok hchecked).1, hroot⟩

/-- The nodes of a binder read no representation or one of its registry. -/
theorem served_of_compile (hr : r.Closed) (h : compile source s r = .ok b) {n : Node}
    (hn : n ∈ b.root.walk) : Tree.Served b.registry.representations n.strategy := by
  obtain ⟨rfl, es, -, hroot⟩ := compile_eq_ok h
  exact Tree.served_of_compile hr hroot hn

/-! ### Binding -/

theorem not_unknown_of_validate {v : Value} {f : Failure} (h : b.validate v = .error f) :
    ¬ f.Unknown := by
  intro hu
  unfold validate at h
  cases hv : b.validator with
  | none =>
    rw [hv] at h
    cases h
    cases hu
  | some x =>
    simp only [hv] at h
    rcases hx : x.validate v with c | _ | violation <;> rw [hx] at h <;> cases h <;> cases hu

theorem conclude_eq_error {e : Extraction} {f : Failure} (h : b.conclude e = .error f) :
    b.validate e.1 = .error f := by
  unfold conclude at h
  rcases e with ⟨v, _ | _⟩
  · cases h
  · cases hv : b.validator.isSome with
    | false => simp [hv, pure, Except.pure] at h
    | true =>
      cases hx : b.validate v with
      | error g => simpa [hv, hx] using h
      | ok _ => simp [hv, hx, pure, Except.pure] at h

/-- However a registry is built, its binders ask the cache of a document only for representations that
have a slot. So no bind fails because a representation is unknown, unless a builder or a strategy says
so of its own accord. -/
theorem bind_served {calls : List Registry.Registration}
    (h : compile source s (.built calls) = .ok b) (raw : Text.Bytes) (token : Option CancelToken) :
    let run := b.bind raw token
    (∀ n ∈ b.root.walk, Tree.Served b.registry.representations n.strategy) ∧
      run.2.cache.slots.map (·.representation) = b.registry.representations ∧
      (∀ n ∈ run.2.started, n ∈ b.root.walk) ∧
      ∀ f, run.1 = .error f → f.Unknown → ∃ g : Failure, g.Unknown ∧
        ((∃ x ∈ b.registry.representations, ∃ k c, x.build k raw = .error c ∧ c.report x.name = g) ∨
          ∃ n ∈ b.root.walk, ∃ d, n.strategy.extract d = .error g) := by
  intro run
  have hserved := fun n hn => served_of_compile (n := n) (Registry.closed_built calls) h hn
  let fresh := Cache.ofDocument raw b.registry.representations
  have hover : fresh.Over raw b.registry.representations := Cache.over_ofDocument raw _
  refine ⟨hserved, ?_, ?_, ?_⟩
  · exact (hover.later (Tree.later_bind token b.root (.ofCache fresh))).representations
  · exact Tree.mem_walk_of_started token b.root fresh
  · intro f hf hu
    cases ho : (Tree.bind token b.root (.ofCache fresh)).1 with
    | error g =>
      obtain rfl : g = f := Except.error.inj ((congrArg (·.bind b.conclude) ho).symm.trans hf)
      exact (Tree.bind_ends token b.root hover ho).of_unknown hserved hu
    | ok e =>
      have hc : b.conclude e = .error f := (congrArg (·.bind b.conclude) ho).symm.trans hf
      exact absurd hu (not_unknown_of_validate (conclude_eq_error hc))

/-- Two calls are refused: a family without its representation, and a representation that is there. -/
theorem bind_served_refused :
    let calls : List Registry.Registration :=
      [.family ⟨"exact", some "decimal", Strategy.jsonPath "exact" "decimal"⟩,
        .representation .json, .representation .json,
        .family ⟨"whole", some "json", fun e =>
          .ok ⟨"whole", e, some "json", .custom fun d => .ok (d, true)⟩⟩]
    let root := Node.mk "$" ⟨"whole", "all", some "json", .custom fun d => .ok (d, true)⟩ .leaf
    let s : Settings := { defaultFamily := "whole", validateOutput := false }
    let b : Binder := ⟨root, .built calls, s, none⟩
    compile (.mapping [("bind", .text "all")]) s (.built calls) = .ok b ∧
      Tree.Served [.json] root.strategy ∧
      (b.bind (Text.utf8 "[]") none).2.cache.slots.map (·.representation) = [.json] := by
  intro calls root s b
  have h : compile (.mapping [("bind", .text "all")]) s (.built calls) = .ok b := rfl
  obtain ⟨hserved, hslots, -⟩ := bind_served h (Text.utf8 "[]") none
  exact ⟨h, hserved root root.self_mem_walk, hslots⟩

end Binder

end Reshape
