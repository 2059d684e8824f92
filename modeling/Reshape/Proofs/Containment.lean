import Reshape.Proofs.Binder
import Reshape.Proofs.Json.Plain
import Reshape.Proofs.Tree.Reached

/-! What leaves a binder of the default registry. Faults are located at a node or reported by the
validator. The crashes of evaluators, of exact numbers, of sequence seeds and of the validator are not
contained: `bind_contained` says which crash leaves a bind, and when. -/

namespace Reshape

namespace Strategy

/-- How the document is read for a strategy of a built-in family. -/
def reading (t : Strategy) : Json.Reading :=
  if t.representation = some "decimal" then .exact else .nearest

/-- The crashes that the extraction of a strategy does not contain. -/
inductive Leaks (raw : Text.Bytes) (t : Strategy) : Crash → Prop
  /-- A sequence is longer than any can be. -/
  | length {n : Nat} : t.method = .sequence n → Sequence.sizeLimit < n → Leaks raw t .overflow
  /-- A sequence is longer than memory can hold. -/
  | memory {n : Nat} : t.method = .sequence n → n ≤ Sequence.sizeLimit → Sequence.memoryLimit < n →
    Leaks raw t .memory
  /-- An exact number has an exponent out of range. -/
  | range : t.representation = some "decimal" → Json.parseBytes .exact raw = .error .outOfRange →
    Leaks raw t .arithmetic
  | query {q : JmesPath.Query} {d : Value} {c : Crash} : t.method = .jmesPath q →
    Json.parseBytes t.reading raw = .ok d → q.search d = .error (.crash c) → Leaks raw t c
  | path {e : JsonPath.Expr} {d : Value} {c : Crash} : t.method = .jsonPath e →
    Json.parseBytes t.reading raw = .ok d → e.search d = .error (.crash c) → Leaks raw t c

/-! ### Built-in families -/

/-- What the built-in families make. -/
inductive Builtin (t : Strategy) : Prop
  | absent : t.representation = none → t.method = .absent → Builtin t
  | mapping : t.representation = none → t.method = .mapping → Builtin t
  | sequence {n : Nat} : t.representation = none → t.method = .sequence n → Builtin t
  | query {q : JmesPath.Query} : t.representation = some "json" → t.method = .jmesPath q → Builtin t
  | pointer {p : Pointer} : t.representation = some "json" → t.method = .pointer p → Builtin t
  | path {e : JsonPath.Expr} : t.representation = some "json" ∨ t.representation = some "decimal" →
    t.method = .jsonPath e → Builtin t

theorem builtin_of_sequence {e : String} {t : Strategy} (h : Strategy.sequence e = .ok t) :
    t.Builtin := by
  unfold Strategy.sequence at h
  split at h
  · cases h
  · split_ifs at h
    obtain rfl := Except.ok.inj h
    exact .sequence rfl rfl

theorem builtin_of_jmesPath {e : String} {t : Strategy} (h : Strategy.jmesPath e = .ok t) :
    t.Builtin := by
  unfold Strategy.jmesPath at h
  split at h
  · obtain rfl := Except.ok.inj h
    exact .query rfl rfl
  all_goals cases h

theorem builtin_of_jsonPath {family name e : String} {t : Strategy}
    (h : Strategy.jsonPath family name e = .ok t) (hn : name = "json" ∨ name = "decimal") :
    t.Builtin := by
  unfold Strategy.jsonPath at h
  split at h
  · obtain rfl := Except.ok.inj h
    exact .path (hn.imp (congrArg some) (congrArg some)) rfl
  · cases h

theorem builtin_of_pointer {e : String} {t : Strategy} (h : Strategy.pointer e = .ok t) :
    t.Builtin := by
  unfold Strategy.pointer at h
  split at h
  · obtain rfl := Except.ok.inj h
    exact .pointer rfl rfl
  · cases h

theorem builtin_of_make {f : Family} (hf : f ∈ Registry.builtinFamilies) {e : String} {t : Strategy}
    (hmake : f.make e = .ok t) : t.Builtin := by
  simp only [Registry.builtinFamilies, List.mem_cons, List.not_mem_nil, or_false] at hf
  rcases hf with rfl | rfl | rfl | rfl | rfl | rfl | rfl
  · obtain rfl := Except.ok.inj hmake
    exact .absent rfl rfl
  · obtain rfl := Except.ok.inj hmake
    exact .mapping rfl rfl
  · exact builtin_of_sequence hmake
  · exact builtin_of_jmesPath hmake
  · exact builtin_of_jsonPath hmake (.inl rfl)
  · exact builtin_of_pointer hmake
  · exact builtin_of_jsonPath hmake (.inr rfl)

theorem builtin_of_create {family e : String} {t : Strategy}
    (h : Registry.default.create family e = .ok t) : t.Builtin := by
  obtain ⟨f, hf, hmake, -⟩ := Registry.create_eq_ok.mp h
  exact builtin_of_make (Registry.mem_of_find? hf) hmake

namespace Builtin

variable {t : Strategy}

theorem representation_of_sequence (ht : t.Builtin) {n : Nat} (h : t.method = .sequence n) :
    t.representation = none := by
  cases ht <;> simp_all

theorem reads_of_query (ht : t.Builtin) {q : JmesPath.Query} (h : t.method = .jmesPath q) :
    t.representation = some "json" ∨ t.representation = some "decimal" := by
  cases ht <;> simp_all

theorem reads_of_path (ht : t.Builtin) {e : JsonPath.Expr} (h : t.method = .jsonPath e) :
    t.representation = some "json" ∨ t.representation = some "decimal" := by
  cases ht <;> simp_all

end Builtin

/-! ### Extraction -/

theorem extract_query {t : Strategy} {q : JmesPath.Query} (h : t.method = .jmesPath q) {d : Value}
    {c : Crash} : t.extract d = .error (.crash c) ↔ q.search d = .error (.crash c) := by
  simp only [extract, h]
  rcases q.search d with (_ | _) | v <;> simp

theorem extract_path {t : Strategy} {e : JsonPath.Expr} (h : t.method = .jsonPath e) {d : Value}
    {c : Crash} : t.extract d = .error (.crash c) ↔ e.search d = .error (.crash c) := by
  simp only [extract, h]
  rcases e.search d with (_ | _ | _) | vs <;> simp

end Strategy

namespace Tree

/-- The representations of the default registry are two readings of the document. -/
theorem answer_default (raw : Text.Bytes) {name : String} {r : Json.Reading}
    (h : name = "json" ∧ r = .nearest ∨ name = "decimal" ∧ r = .exact) :
    Cache.answer raw name Registry.default.representations =
      (Json.parseBytes r raw).mapError fun f => (Representation.jsonFault f).report name := by
  rcases h with ⟨rfl, rfl⟩ | ⟨rfl, rfl⟩
  · simp only [Registry.default, Cache.answer, Representation.json, Representation.jsonBuild, if_true]
    cases Json.parseBytes .nearest raw <;> rfl
  · simp only [Registry.default, Cache.answer, Representation.json, Representation.decimal,
      Representation.jsonBuild, if_true]
    cases Json.parseBytes .exact raw <;> rfl

theorem report_jsonFault {f : Json.Fault} {name : String} {c : Crash} :
    (Representation.jsonFault f).report name = .crash c ↔ f = .outOfRange ∧ c = .arithmetic := by
  cases f <;> simp [Representation.jsonFault, BuildFault.report, eq_comm]

/-- A strategy that reads the document fails as reading does, or as its evaluation does. -/
theorem extractAnew_of_reads {raw : Text.Bytes} {t : Strategy}
    (h : t.representation = some "json" ∨ t.representation = some "decimal") {c : Crash} :
    extractAnew raw Registry.default.representations t = .error (.crash c) ↔
      Json.parseBytes t.reading raw = .error .outOfRange ∧ c = .arithmetic ∨
        ∃ d, Json.parseBytes t.reading raw = .ok d ∧ t.extract d = .error (.crash c) := by
  obtain ⟨name, hname, hreading⟩ : ∃ name, t.representation = some name ∧
      (name = "json" ∧ t.reading = .nearest ∨ name = "decimal" ∧ t.reading = .exact) := by
    rcases h with h | h
    · exact ⟨_, h, .inl ⟨rfl, by simp [Strategy.reading, h]⟩⟩
    · exact ⟨_, h, .inr ⟨rfl, by simp [Strategy.reading, h]⟩⟩
  rw [extractAnew, hname]
  simp only [answer_default raw hreading]
  rcases Json.parseBytes t.reading raw with f | d
  · simp [Except.mapError, Except.bind, report_jsonFault]
  · simp [Except.mapError, Except.bind]

/-- Extraction by a strategy of a built-in family crashes exactly if the strategy leaks. -/
theorem extractAnew_crash {raw : Text.Bytes} {t : Strategy} (ht : t.Builtin) {c : Crash} :
    extractAnew raw Registry.default.representations t = .error (.crash c) ↔ t.Leaks raw c := by
  have hjson : t.representation = some "json" → Json.parseBytes t.reading raw ≠ .error .outOfRange := by
    intro h
    simp only [Strategy.reading, h, Option.some.injEq, String.reduceEq, if_false]
    exact Json.parseBytes_ne_range raw
  constructor
  · intro h
    cases ht with
    | absent hr hm => simp [extractAnew, hr, Strategy.extract, hm] at h
    | mapping hr hm => simp [extractAnew, hr, Strategy.extract, hm] at h
    | sequence hr hm =>
      simp only [extractAnew, hr, Strategy.extract, hm] at h
      split_ifs at h with hsize hmemory
      · cases h
        exact .length hm hsize
      · cases h
        exact .memory hm (Nat.le_of_not_lt hsize) hmemory
    | query hr hm =>
      rcases (extractAnew_of_reads (.inl hr)).mp h with ⟨hrange, -⟩ | ⟨d, hd, hx⟩
      · exact absurd hrange (hjson hr)
      · exact .query hm hd ((Strategy.extract_query hm).mp hx)
    | pointer hr hm =>
      rcases (extractAnew_of_reads (.inl hr)).mp h with ⟨hrange, -⟩ | ⟨d, hd, hx⟩
      · exact absurd hrange (hjson hr)
      · simp [Strategy.extract, hm] at hx
    | path hr hm =>
      rcases (extractAnew_of_reads hr).mp h with ⟨hrange, rfl⟩ | ⟨d, hd, hx⟩
      · have hdecimal := hr.resolve_left fun h => hjson h hrange
        refine .range hdecimal ?_
        simpa only [Strategy.reading, hdecimal, if_true] using hrange
      · exact .path hm hd ((Strategy.extract_path hm).mp hx)
  · intro h
    cases h with
    | length hm hsize =>
      rw [extractAnew, ht.representation_of_sequence hm]
      simp [Strategy.extract, hm, hsize]
    | memory hm hsize hmemory =>
      rw [extractAnew, ht.representation_of_sequence hm]
      simp [Strategy.extract, hm, Nat.not_lt.mpr hsize, hmemory]
    | range hr hrange =>
      refine (extractAnew_of_reads (.inr hr)).mpr (.inl ⟨?_, rfl⟩)
      simpa only [Strategy.reading, hr, if_true] using hrange
    | query hm hd hx =>
      refine (extractAnew_of_reads (ht.reads_of_query hm)).mpr (.inr ⟨_, hd, ?_⟩)
      exact (Strategy.extract_query hm).mpr hx
    | path hm hd hx =>
      refine (extractAnew_of_reads (ht.reads_of_path hm)).mpr (.inr ⟨_, hd, ?_⟩)
      exact (Strategy.extract_path hm).mpr hx

/-- A step crashes as its extraction does. That a value cannot hold the children is a fault. -/
theorem stepAnew_crash {raw : Text.Bytes} {rs : List Representation} {n : Node} {c : Crash} :
    stepAnew raw rs n = .error (.crash c) ↔ extractAnew raw rs n.strategy = .error (.crash c) := by
  unfold stepAnew
  rcases extractAnew raw rs n.strategy with f | e
  · simp [Except.bind]
  · have hfits : fits n.children e.1 ≠ .error (.crash c) := by
      intro h
      rcases fits_eq_error h with ⟨_, h⟩ | ⟨_, _, h⟩ <;> cases h
    simp only [Except.bind, reduceCtorEq, iff_false]
    split_ifs
    · rwa [Except.map_eq_error]
    · simp

theorem stepFails_crash {raw : Text.Bytes} {rs : List Representation} {n : Node} {c : Crash} :
    StepFails raw rs n (.crash c) ↔ extractAnew raw rs n.strategy = .error (.crash c) := by
  rw [← stepAnew_crash]
  constructor
  · rintro ⟨f | c', h, he⟩
    · cases he
    · rw [h, he]
      rfl
  · exact fun h => ⟨_, h, rfl⟩

end Tree

namespace Binder

variable {source : SchemaSource} {s : Settings} {b : Binder}

theorem strategy_builtin (h : compile source s .default = .ok b) {n : Node} (hn : n ∈ b.root.walk) :
    n.strategy.Builtin := by
  obtain ⟨-, es, -, hroot⟩ := compile_eq_ok h
  rcases Tree.strategy_of_compile hroot hn with ha | ⟨family, e, hc⟩
  · rw [ha]
    exact .absent rfl rfl
  · exact Strategy.builtin_of_create hc

/-- The crashes that leave a bind: a strategy leaks at the first node whose own step does not succeed,
or the validator crashes on the value that is bound. -/
inductive Escapes (b : Binder) (raw : Text.Bytes) : Crash → Prop
  | node {before rest : List Node} {n : Node} {c : Crash} :
    Tree.reached raw b.registry.representations b.root = before ++ n :: rest →
    (∀ m ∈ before, ∃ e, Tree.stepAnew raw b.registry.representations m = .ok e) →
    n.strategy.Leaks raw c → Escapes b raw c
  | validator {v : Value} {x : Schema.Validator} {c : Crash} :
    (Tree.freshRun raw b.registry.representations none b.root).1 = .ok (v, true) →
    b.validator = some x → x.validate v = .error c → Escapes b raw c

theorem fst_bind (b : Binder) (raw : Text.Bytes) (token : Option CancelToken) :
    (b.bind raw token).1 =
      ((Tree.freshRun raw b.registry.representations token b.root).1 >>= b.conclude) := rfl

theorem conclude_crash {e : Extraction} {c : Crash} :
    b.conclude e = .error (.crash c) ↔
      e.2 = true ∧ ∃ x, b.validator = some x ∧ x.validate e.1 = .error c := by
  rcases e with ⟨v, _ | _⟩
  · simp [conclude, pure, Except.pure]
  · cases hx : b.validator with
    | none => simp [conclude, hx, pure, Except.pure]
    | some x =>
      rcases hv : x.validate v with c' | _ | violation <;>
        simp [conclude, validate, hx, hv, pure, Except.pure, Except.mapError, throw, throwThe,
          MonadExceptOf.throw]

theorem conclude_fault {e : Extraction} {f : Fault} (h : b.conclude e = .error (.fault f)) :
    ∃ m p, f = .output m p := by
  have hvalidate := conclude_eq_error h
  unfold validate at hvalidate
  cases hx : b.validator with
  | none => simp [hx] at hvalidate
  | some x =>
    simp only [hx] at hvalidate
    rcases hv : x.validate e.1 with c | _ | violation <;> rw [hv] at hvalidate <;> cases hvalidate
    exact ⟨_, _, rfl⟩

theorem steady_of_compile (h : compile source s .default = .ok b) (raw : Text.Bytes) :
    ∀ x ∈ b.registry.representations, x.Steady raw := by
  rw [(compile_eq_ok h).1]
  exact Tree.steady_default raw

/-- Of a compiled binder, a node crashes exactly if its strategy leaks. -/
theorem stepFails_iff_leaks (h : compile source s .default = .ok b) {raw : Text.Bytes} {n : Node}
    (hn : n ∈ b.root.walk) {c : Crash} :
    Tree.StepFails raw b.registry.representations n (.crash c) ↔ n.strategy.Leaks raw c := by
  rw [Tree.stepFails_crash, (compile_eq_ok h).1]
  exact Tree.extractAnew_crash (strategy_builtin h hn)

/-- A bind fails as its run does, or as what is concluded from the result of the run. -/
theorem bind_eq_error (h : compile source s .default = .ok b) (raw : Text.Bytes) {f : Failure} :
    (b.bind raw none).1 = .error f ↔
      First (Tree.StepFails raw b.registry.representations)
          (Tree.reached raw b.registry.representations b.root) f ∨
        ∃ e, (Tree.freshRun raw b.registry.representations none b.root).1 = .ok e ∧
          b.conclude e = .error f := by
  rw [fst_bind, ← Tree.freshRun_eq_error (steady_of_compile h raw)]
  cases (Tree.freshRun raw b.registry.representations none b.root).1 <;> simp

/-- A crash escapes from the first node that fails, or from the conclusion. -/
theorem escapes_iff (h : compile source s .default = .ok b) {raw : Text.Bytes} {c : Crash} :
    Escapes b raw c ↔
      First (Tree.StepFails raw b.registry.representations)
          (Tree.reached raw b.registry.representations b.root) (.crash c) ∨
        ∃ e, (Tree.freshRun raw b.registry.representations none b.root).1 = .ok e ∧
          b.conclude e = .error (.crash c) := by
  have hleaks : ∀ n ∈ Tree.reached raw b.registry.representations b.root,
      (Tree.StepFails raw b.registry.representations n (.crash c) ↔ n.strategy.Leaks raw c) :=
    fun n hn => stepFails_iff_leaks h (Tree.mem_walk_of_reached hn)
  constructor
  · intro hc
    cases hc with
    | @node before rest n _ hl hbefore hn =>
      have hmem := hl.symm ▸ List.mem_append_cons_self
      exact .inl (First.split_iff.mpr ⟨before, n, rest, hl,
        fun m hm => Tree.not_stepFails.mpr (hbefore m hm), (hleaks n hmem).mpr hn⟩)
    | validator ho hx hv => exact .inr ⟨_, ho, conclude_crash.mpr ⟨rfl, _, hx, hv⟩⟩
  · rintro (hfirst | ⟨⟨v, _⟩, ho, hconclude⟩)
    · obtain ⟨before, n, rest, hl, hbefore, hn⟩ := First.split_iff.mp hfirst
      have hmem := hl.symm ▸ List.mem_append_cons_self
      exact .node hl (fun m hm => Tree.not_stepFails.mp (hbefore m hm)) ((hleaks n hmem).mp hn)
    · obtain ⟨rfl, x, hx, hv⟩ := conclude_crash.mp hconclude
      exact .validator ho hx hv

/-- A bind of the default registry without a token fails with a located fault, with a fault of the
validator, or with a crash, and the last exactly if the crash escapes. -/
theorem bind_contained (h : compile source s .default = .ok b) (raw : Text.Bytes) :
    (∀ c, (b.bind raw none).1 = .error (.crash c) ↔ Escapes b raw c) ∧
      ∀ f, (b.bind raw none).1 = .error (.fault f) →
        (∃ path cause, f = .located path cause) ∨ ∃ message path, f = .output message path := by
  refine ⟨fun c => ?crashes, fun f hf => ?faults⟩
  case crashes => rw [bind_eq_error h raw, escapes_iff h]
  case faults =>
    rcases (bind_eq_error h raw).mp hf with hfirst | ⟨e, -, hconclude⟩
    · obtain ⟨n, -, g, -, hg⟩ := hfirst.exists_mem
      exact .inl (Tree.locate_eq_fault hg.symm)
    · exact .inr (conclude_fault hconclude)

/-- Whether a schema compiles to a binder that crashes on a document. -/
def crashes (source : SchemaSource) (s : Settings) (raw : Text.Bytes) : Bool :=
  match compile source s .default with
  | .ok b =>
    match (b.bind raw none).1 with
    | .error (.crash _) => true
    | _ => false
  | .error _ => false

theorem exists_of_crashes {raw : Text.Bytes} (h : crashes source s raw = true) :
    ∃ b, compile source s .default = .ok b ∧ ∃ c, (b.bind raw none).1 = .error (.crash c) := by
  unfold crashes at h
  split at h
  · next b hb =>
    split at h
    · next c hc => exact ⟨b, hb, c, hc⟩
    · cases h
  · cases h

/-- An exact number whose exponent is out of range. -/
theorem bind_contained_out_of_range :
    ∃ b, compile (.text "\x7b\"bind\": \"exact:$.a\"\x7d") {} .default = .ok b ∧
      ∃ c, Escapes b (Text.utf8 "\x7b\"a\": 1e9999999999999999999\x7d") c := by
  have hcrash : crashes (.text "\x7b\"bind\": \"exact:$.a\"\x7d") {}
      (Text.utf8 "\x7b\"a\": 1e9999999999999999999\x7d") = true := by decide +kernel
  obtain ⟨b, hb, c, hc⟩ := exists_of_crashes hcrash
  exact ⟨b, hb, c, ((bind_contained hb _).1 c).mp hc⟩

/-- A bind can fail otherwise than with a located fault or a fault of the validator: a query compares
a text with a number. -/
theorem bind_not_contained :
    ¬ ∀ (source : SchemaSource) (s : Settings) (b : Binder) (raw : Text.Bytes),
      compile source s .default = .ok b → ∀ f, (b.bind raw none).1 = .error f →
        (∃ path cause, f = .fault (.located path cause)) ∨
          ∃ message path, f = .fault (.output message path) := by
  intro h
  have hcrash : crashes (.text "\x7b\"bind\": \"a < b\"\x7d") {}
      (Text.utf8 "\x7b\"a\": \"x\", \"b\": 1\x7d") = true := by decide +kernel
  obtain ⟨b, hb, c, hc⟩ := exists_of_crashes hcrash
  rcases h _ _ b _ hb _ hc with ⟨_, _, hf⟩ | ⟨_, _, hf⟩ <;> cases hf

end Binder

end Reshape
