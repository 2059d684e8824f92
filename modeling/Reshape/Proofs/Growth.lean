import Reshape.Proofs.Binder
import Reshape.Proofs.Grammar
import Reshape.Proofs.Tree.Demand

/-! Registries that grow. What compiles with a registry compiles to the same tree when more has been
registered, unless a directive starts with the name of a new family; and the tree binds every document
as before, on a cache with more slots. -/

namespace Reshape.Tree

variable {r r' : Registry} {s : Settings}

/-! ### Compiling -/

/-- No directive of the schema starts with the name of a family that only the second registry has. -/
def Untouched (keyword : String) (r r' : Registry) (schema : Value) : Prop :=
  ∀ y ∈ positions schema, ∀ es t, y.2 = .object es →
    Entries.find? (.text keyword) es = some (.text t) →
      ∀ name, Directive.Fronts name t → r'.contains name = true → r.contains name = true

theorem directiveOf_extends (h : r.Extends r') {es : List (Key × Value)}
    (hes : ∀ t, Entries.find? (.text s.keyword) es = some (.text t) →
      ∀ name, Directive.Fronts name t → r'.contains name = true → r.contains name = true)
    (path : String) : directiveOf r' s es path = directiveOf r s es path := by
  unfold directiveOf
  split
  · rfl
  · next t ht =>
    rw [Directive.splitIn_congr fun name hname => ?_]
    exact Bool.eq_iff_iff.mpr ⟨hes t ht name hname, h.contains⟩
  · rfl

theorem strategyAt_extends (h : r.Extends r') {d : Directive} {path : String} {t : Strategy}
    (ht : strategyAt r d path = .ok t) : strategyAt r' d path = .ok t := by
  unfold strategyAt at ht
  split_ifs at ht with hc
  have hd : r.contains d.family = true := by simpa using hc
  rw [strategyAt, if_neg (by simp [h.contains hd]), h.create hd]
  exact ht

/-- A registry that has grown compiles to the same tree. -/
theorem compile_extends (h : r.Extends r') {schema : Value} {root : Node}
    (hschema : Untouched s.keyword r r' schema) (hroot : compile schema r s = .ok root) :
    compile schema r' s = .ok root := by
  have hstrategy : ∀ d path, (strategyAt r d path).Keeps (fun _ => False) (strategyAt r' d path) := by
    intro d path
    cases ht : strategyAt r d path with
    | error f => exact fun hf => hf.elim
    | ok t => exact strategyAt_extends h ht
  have hdirective : ∀ y ∈ positions schema, ∀ es, y.2 = .object es →
      ∀ path, directiveOf r' s es path = directiveOf r s es path :=
    fun y hy es hes path => directiveOf_extends h (fun t ht => hschema y hy es t hes ht) path
  have hkeeps := compileNode_keeps hstrategy hdirective rootPath
  unfold compile at hroot ⊢
  split_ifs at hroot with hdefault
  obtain ⟨o, ho, hrest⟩ := Except.bind_eq_ok.mp hroot
  have hdefault' : r'.contains s.defaultFamily = true := h.contains (by simpa using hdefault)
  rw [if_neg (by simp [hdefault']), hkeeps.eq_ok ho]
  exact hrest

/-! ### Binding -/

/-- Sessions of one document, the second of which may have more slots. -/
structure Covers (rs : List Representation) (s t : Session) : Prop where
  bytes : t.cache.raw = s.cache.raw
  slots : ∀ x ∈ rs, t.cache.slot? x.name = s.cache.slot? x.name
  polls : t.polls = s.polls
  started : t.started = s.started

variable {rs : List Representation}

theorem Covers.poll {s t : Session} (h : Covers rs s t) (token : Option CancelToken) :
    (poll token s).1 = (poll token t).1 ∧ Covers rs (poll token s).2 (poll token t).2 := by
  obtain ⟨hanswer, hpolls⟩ := poll_congr token h.polls
  refine ⟨hanswer, ?_, ?_, hpolls, ?_⟩
  · rw [poll_cache, poll_cache, h.bytes]
  · rw [poll_cache, poll_cache]; exact h.slots
  · rw [poll_started, poll_started, h.started]

/-- A node that is served takes the same step in both sessions. -/
theorem respects_covers {n : Node} (hn : Served rs n.strategy) : Respects (Covers rs) n := by
  intro s t h
  have hslots : ∀ x ∈ rs, (after n t).cache.slot? x.name = (after n s).cache.slot? x.name := by
    intro x hx
    rw [slot?_after, slot?_after, h.slots x hx, h.bytes]
  refine ⟨?_, ?_, hslots, h.polls, by simp only [after, h.started]⟩
  · cases hr : n.strategy.representation with
    | none => simp [extraction, extractFrom_eq, hr]
    | some name =>
      obtain ⟨x, hx, rfl⟩ := hn name hr
      simp only [extraction, extractFrom_eq, hr, Cache.fst_get, h.bytes, h.slots x hx]
  · rw [after, after, (later_extractFrom _ _).raw, (later_extractFrom _ _).raw, h.bytes]

theorem covers_ofDocument {rs' : List Representation} (h : rs <+: rs') (raw : Text.Bytes) :
    Covers rs (.ofCache (.ofDocument raw rs)) (.ofCache (.ofDocument raw rs')) := by
  obtain ⟨more, rfl⟩ := h
  refine ⟨rfl, fun x hx => ?_, rfl, rfl⟩
  have hfound : (rs.find? fun y => y.name == x.name).isSome = true := by
    simpa using ⟨x, hx, rfl⟩
  obtain ⟨y, hy⟩ := Option.isSome_iff_exists.mp hfound
  simp only [Session.ofCache, Cache.ofDocument, Cache.slot?, List.find?_map, Function.comp_def,
    Cache.Slot.empty, List.find?_append, hy, Option.some_or]

/-- Slots that no node reads make no difference to a run. -/
theorem freshRun_covers {rs' : List Representation} (h : rs <+: rs') {root : Node}
    (hroot : ∀ n ∈ root.walk, Served rs n.strategy) (raw : Text.Bytes)
    (token : Option CancelToken) :
    (freshRun raw rs' token root).1 = (freshRun raw rs token root).1 ∧
      (freshRun raw rs' token root).2.polls = (freshRun raw rs token root).2.polls ∧
      (freshRun raw rs' token root).2.started = (freshRun raw rs token root).2.started := by
  obtain ⟨l, hl, hwalk⟩ := started_bind token root (.ofCache (.ofDocument raw rs))
  obtain ⟨hr, hc⟩ := bind_sim token (fun h => h.poll token) hl
    (fun n hn => respects_covers (hroot n (hwalk n hn))) (covers_ofDocument h raw)
  exact ⟨hr.symm, hc.polls, hc.started⟩

/-! ### Later registrations -/

/-- Whatever is registered later, a schema that compiled compiles to the same tree, unless a directive
starts with the name of a new family; and every run of the tree, on a cache for the representations of
either registry, gives the same, asks the token as often and extracts the same nodes. -/
theorem compile_later (calls more : List Registry.Registration) {schema : Value} {root : Node}
    (hschema : Untouched s.keyword (.built calls) (.built (calls ++ more)) schema)
    (hroot : compile schema (.built calls) s = .ok root) :
    compile schema (.built (calls ++ more)) s = .ok root ∧
      ∀ raw token,
        let run := freshRun raw (Registry.built calls).representations token root
        let later := freshRun raw (Registry.built (calls ++ more)).representations token root
        later.1 = run.1 ∧ later.2.polls = run.2.polls ∧ later.2.started = run.2.started := by
  have hextends := Registry.extends_built calls more
  refine ⟨compile_extends hextends hschema hroot, fun raw token => ?_⟩
  exact freshRun_covers hextends.representations
    (fun n hn => served_of_compile (Registry.closed_built calls) hroot hn) raw token

/-- The new family is named inside of an expression, where it is not split off. -/
theorem compile_later_inside :
    let calls : List Registry.Registration :=
      [.representation .json, .family ⟨"whole", some "json", fun e =>
        .ok ⟨"whole", e, some "json", .custom fun d => .ok (d, true)⟩⟩]
    let more : List Registry.Registration :=
      [.representation .decimal, .family ⟨"late", none, fun _ => .ok .absent⟩]
    let s : Settings := { defaultFamily := "whole" }
    let schema := Value.object [("bind", .text "whole:late:")]
    let root := Node.mk "$" ⟨"whole", "late:", some "json", .custom fun d => .ok (d, true)⟩ .leaf
    Untouched s.keyword (.built calls) (.built (calls ++ more)) schema ∧
      compile schema (.built calls) s = .ok root ∧
      compile schema (.built (calls ++ more)) s = .ok root ∧
      (freshRun (Text.utf8 "[1]") (Registry.built (calls ++ more)).representations none root).1 =
        (freshRun (Text.utf8 "[1]") (Registry.built calls).representations none root).1 := by
  intro calls more s schema root
  have hroot : compile schema (.built calls) s = .ok root := rfl
  have hwhole : (Registry.built calls).contains "whole" = true := rfl
  have hschema : Untouched s.keyword (.built calls) (.built (calls ++ more)) schema := by
    intro y hy es t hes ht name hname hnew
    have hparts : parts schema = [] := rfl
    rw [positions_eq, hparts] at hy
    obtain rfl := List.mem_singleton.mp hy
    obtain rfl := Value.object.inj hes
    obtain rfl : "whole:late:" = t := by simpa [Entries.find?, s] using ht
    obtain rfl := (Directive.fronts_of_cut (s := "whole:late:") rfl).unique hname
    exact hwhole
  obtain ⟨hlater, hbind⟩ := compile_later calls more hschema hroot
  exact ⟨hschema, hroot, hlater, (hbind (Text.utf8 "[1]") none).1⟩

end Reshape.Tree
