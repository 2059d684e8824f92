import Reshape.Proofs.Containment
import Reshape.Proofs.Text.Digits
import Reshape.Proofs.Tree.Causes
import Reshape.Proofs.Tree.Exactness

/-! Inferred containers. A position without a directive is compiled to a seed, whose family is decided
by the keys of the position and whose length is written into an expression and read back. The seed is
a mapping for named children, and a sequence with a slot for every item for indexed ones, so it can
always hold them: a value that is of the wrong kind or too short comes from a directive. -/

namespace Reshape

/-- A value is of the wrong kind for what is to be put into it, or too short. -/
def Fault.misfit : Fault → Bool
  | .cast _ _ | .capacity _ _ => true
  | _ => false

/-- Neither a misfit nor a fault that names a place. -/
def Failure.neutral : Failure → Bool
  | .fault f => !f.misfit && !f.annotated
  | .crash _ => true

/-- The strategies and builders that are not built in fail with nothing that a run itself reports of
its nodes. -/
structure Registry.Tame (raw : Text.Bytes) (r : Registry) : Prop where
  strategies : ∀ f ∈ r.families, f ∉ builtinFamilies → ∀ e t d g, f.make e = .ok t →
    t.extract d = .error g → g.neutral = true
  builders : ∀ x ∈ r.representations, x ∉ Registry.default.representations → ∀ k g,
    x.build k raw = .error (.other g) → g.neutral = true

/-! ### Neutral failures -/

theorem Strategy.Builtin.neutral {t : Strategy} (ht : t.Builtin) {d : Value} {g : Failure}
    (h : t.extract d = .error g) : g.neutral = true := by
  cases ht with
  | absent _ hm | mapping _ hm | pointer _ hm => simp [extract, hm] at h
  | sequence _ hm =>
    simp only [extract, hm] at h
    split_ifs at h <;> obtain rfl := Except.error.inj h <;> rfl
  | query _ hm | path _ hm =>
    simp only [extract, hm] at h
    split at h <;> first | cases h; done | obtain rfl := Except.error.inj h; rfl

namespace Tree

variable {raw : Text.Bytes} {r : Registry} {s : Settings}

theorem neutral_of_create (hr : r.Tame raw) {family e : String} {t : Strategy}
    (ht : r.create family e = .ok t) {d : Value} {g : Failure} (h : t.extract d = .error g) :
    g.neutral = true := by
  obtain ⟨f, hf, hmake, -⟩ := Registry.create_eq_ok.mp ht
  by_cases hb : f ∈ Registry.builtinFamilies
  · exact (Strategy.builtin_of_make hb hmake).neutral h
  · exact hr.strategies f (Registry.mem_of_find? hf) hb e t d g hmake h

theorem neutral_of_jsonBuild {reading : Json.Reading} {g : Failure}
    (h : Representation.jsonBuild reading raw = .error (.other g)) : g.neutral = true := by
  unfold Representation.jsonBuild at h
  split at h
  · cases h
  · next f hf =>
    cases f <;> simp only [Representation.jsonFault, Except.error.injEq, BuildFault.other.injEq,
      reduceCtorEq] at h
    obtain rfl := h
    rfl

theorem neutral_of_build (hr : r.Tame raw) {x : Representation} (hx : x ∈ r.representations) {k : Nat}
    {b : BuildFault} (h : x.build k raw = .error b) : (b.report x.name).neutral = true := by
  cases b with
  | other g =>
    by_cases hb : x ∈ Registry.default.representations
    · have hjson : ∃ reading, x.build k raw = Representation.jsonBuild reading raw := by
        simp only [Registry.default, List.mem_cons, List.not_mem_nil, or_false] at hb
        rcases hb with rfl | rfl <;> exact ⟨_, rfl⟩
      obtain ⟨reading, hbuild⟩ := hjson
      exact neutral_of_jsonBuild (hbuild.symm.trans h)
    · exact hr.builders x hx hb k g h
  | _ => rfl

/-- The own step of a node fails neutrally, unless the value cannot hold the children. -/
theorem neutral_or_fits_of_raises (hr : r.Tame raw) {n : Node}
    (hn : n.strategy = .absent ∨ ∃ family e, r.create family e = .ok n.strategy) {g : Failure}
    (h : Raises raw r.representations n g) :
    g.neutral = true ∨ ∃ v, fits n.children v = .error g := by
  cases h with
  | request => exact .inl rfl
  | build hx _ hb => exact .inl (neutral_of_build hr hx hb)
  | extract hd =>
    rcases hn with hn | ⟨family, e, ht⟩
    · simp [hn, Strategy.absent, Strategy.extract] at hd
    · exact .inl (neutral_of_create hr ht hd)
  | fit hf => exact .inr ⟨_, hf⟩

/-- A misfit that a run reports is one of the node that it is located at. -/
theorem fits_of_locate {n : Node} {g : Failure} {p : String} {cause : Fault}
    (hg : g.neutral = true ∨ ∃ v, fits n.children v = .error g)
    (h : g.locate n.path = .fault (.located p cause)) (hc : cause.misfit = true) :
    n.path = p ∧ g = .fault cause ∧ ∃ v, fits n.children v = .error g := by
  rcases hg with hg | ⟨v, hv⟩
  · exfalso
    cases g with
    | crash c => cases h
    | fault f =>
      simp only [Failure.neutral, Bool.and_eq_true, Bool.not_eq_true'] at hg
      simp only [Failure.locate, Fault.locate, hg.2, Bool.false_eq_true, if_false,
        Failure.fault.injEq, Fault.located.injEq] at h
      simp [h.2, hc] at hg
  · refine ⟨?_, ?_, v, hv⟩
    all_goals
      rcases fits_eq_error hv with ⟨expected, rfl⟩ | ⟨length, required, rfl⟩ <;>
        simp_all [Failure.locate, Fault.locate, Fault.annotated]

/-! ### Seeds -/

/-- What a node has that was compiled from a position without a directive. -/
inductive Seeded : Value → Node → Prop
  /-- Named children in a mapping. -/
  | mapping {es ps : List (Key × Value)} {n : Node} {nodes : List (Key × Node)} :
    Entries.find? (.text "properties") es = some (.object ps) → n.children = .named nodes →
    n.strategy.representation = none → (∀ d, n.strategy.extract d = .ok (.object [], false)) →
    Seeded (.object es) n
  /-- Indexed children in a sequence with one slot for each item, if memory holds that many. -/
  | sequence {es : List (Key × Value)} {vs : List Value} {n : Node} {slots : List (Option Node)} :
    hasProperties es = false → positional? es = some vs → n.children = .indexed slots →
    slots.length = vs.length → n.strategy.representation = none →
    (∀ d, n.strategy.extract d = .ok (.array (List.replicate vs.length .null), false) ∨
      Sequence.memoryLimit < vs.length ∧ ∃ c, n.strategy.extract d = .error (.crash c)) →
    Seeded (.object es) n

theorem mapping_of_create (hr : Registry.default.Extends r) {t : Strategy}
    (h : r.create "map" "" = .ok t) : t = .mapping := by
  have hdefault : Registry.default.create "map" "" = .ok .mapping := rfl
  rw [hr.create rfl, hdefault] at h
  exact (Except.ok.inj h).symm

/-- The number of the items is read back as it was written. -/
theorem sequence_of_create (hr : Registry.default.Extends r) {n : Nat} {t : Strategy}
    (h : r.create "slice" (toString n) = .ok t) :
    t = ⟨"slice", toString n, none, .sequence n⟩ := by
  rw [hr.create rfl] at h
  obtain ⟨f, hf, hmake, -⟩ := Registry.create_eq_ok.mp h
  obtain rfl : ⟨"slice", none, Strategy.sequence⟩ = f := Option.some.inj hf
  have hpositive : ¬ (n : Int) < 0 := by omega
  simp only [Strategy.sequence, Text.readInteger?_toString_eq] at hmake
  by_cases hn : n < 10 ^ Json.digitLimit
  · simp only [hn, if_true, hpositive, if_false, Except.ok.injEq, Int.toNat_natCast] at hmake
    exact hmake.symm
  · simp [hn] at hmake

theorem extract_sequence (family expression : String) (n : Nat) (d : Value) :
    Strategy.extract ⟨family, expression, none, .sequence n⟩ d =
        .ok (.array (List.replicate n .null), false) ∨
      Sequence.memoryLimit < n ∧
        ∃ c, Strategy.extract ⟨family, expression, none, .sequence n⟩ d = .error (.crash c) := by
  have hlimits : Sequence.memoryLimit ≤ Sequence.sizeLimit := by decide
  simp only [Strategy.extract]
  by_cases hsize : n > Sequence.sizeLimit
  · exact .inr ⟨Nat.lt_of_le_of_lt hlimits hsize, _, if_pos hsize⟩
  · by_cases hmemory : n > Sequence.memoryLimit
    · exact .inr ⟨hmemory, _, by rw [if_neg hsize, if_pos hmemory]⟩
    · exact .inl (by rw [if_neg hsize, if_neg hmemory])

/-- Every position that contributes without a directive has a seed for what is below it. -/
theorem seeded_of_renders (hr : Registry.default.Extends r) {path : String}
    {es : List (Key × Value)} {n : Node} (h : Renders r s path es n)
    (hc : contributes s.keyword (.object es) = true) (hh : holds s.keyword (.object es) = false) :
    Seeded (.object es) n := by
  obtain ⟨d, hd, hcreate⟩ := h.strategy
  have hshaped := h.children
  have hparts : ∃ x ∈ parts (.object es), contributes s.keyword x.2 = true := by
    rcases contributes_iff.mp hc with hholds | hparts
    · simp [hh] at hholds
    · exact hparts
  generalize hn : n.children = children at hshaped
  cases hshaped with
  | leaf hno =>
    obtain ⟨x, hx, hcx⟩ := hparts
    simp [hno x hx] at hcx
  | named hps _ _ =>
    cases hd with
    | own hf => simp [holds, Entries.has, hf] at hh
    | mapping =>
      have ht := mapping_of_create hr hcreate
      exact .mapping hps hn (by rw [ht]; rfl) fun d => by rw [ht]; rfl
    | sequence _ hp => simp [hasProperties, Entries.has, hps] at hp
  | @indexed vs slots hp hvs _ hslots =>
    cases hd with
    | own hf => simp [holds, Entries.has, hf] at hh
    | mapping _ hp' => simp [hp] at hp'
    | @sequence ws _ _ hws =>
      obtain rfl : vs = ws := Option.some.inj (hvs.symm.trans hws)
      have hlength : slots.length = vs.length := by simpa using congrArg List.length hslots
      have ht := sequence_of_create hr hcreate
      refine .sequence hp hvs hn hlength (by rw [ht]) fun d => ?_
      rw [ht]
      exact extract_sequence "slice" _ vs.length d

/-- The own step of a seed gives a container that holds the children, or memory is exhausted. -/
theorem Seeded.ownStep {v : Value} {n : Node} (h : Seeded v n) (u : Session) :
    (∃ e, ownStep n u = .ok e) ∨ ∃ c, ownStep n u = .error (.crash c) := by
  cases h with
  | mapping _ hn hr hx =>
    have he : extraction n u = .ok (.object [], false) := by
      rw [extraction, extractFrom_eq, hr]
      exact hx .null
    exact .inl ⟨_, ownStep_eq_ok.mpr ⟨he, fun _ => by rw [hn]; rfl⟩⟩
  | @sequence es vs n slots _ _ hn hl hr hx =>
    have he : extraction n u = n.strategy.extract .null := by rw [extraction, extractFrom_eq, hr]
    rcases hx .null with hok | ⟨-, c, hcrash⟩
    · refine .inl ⟨_, ownStep_eq_ok.mpr ⟨he.trans hok, fun _ => ?_⟩⟩
      simp [hn, fits, hl]
    · exact .inr ⟨c, by rw [Tree.ownStep, he, hcrash]; rfl⟩

/-! ### Compiled trees -/

theorem map_zip_placed {v : Value} {path : String} {n : Node}
    (h : compileNode r s v path = .ok (some n)) :
    (n.placed.zip (contributing s.keyword v)).map (fun z => z.1.2) = n.walk := by
  have hplaced : (n.placed.zip (contributing s.keyword v)).map Prod.fst = n.placed :=
    List.map_fst_zip (corresponds_of_compile h).length_eq.le
  calc (n.placed.zip (contributing s.keyword v)).map (fun z => z.1.2)
      = ((n.placed.zip (contributing s.keyword v)).map Prod.fst).map Prod.snd := by
        rw [List.map_map]
        rfl
    _ = n.walk := by rw [hplaced, n.map_snd_placed]

theorem seeded_of_compile (hr : Registry.default.Extends r) {path : String} {v : Value} {n : Node}
    (h : compileNode r s v path = .ok (some n)) {x : List Branch × Node} {y : List Branch × Value}
    (hxy : (x, y) ∈ n.placed.zip (contributing s.keyword v)) (hh : holds s.keyword y.2 = false) :
    Seeded y.2 x.2 := by
  obtain ⟨-, es, hes, hrenders⟩ := (List.forall₂_iff_zip.mp (corresponds_of_compile h)).2 hxy
  have hcontributes := (List.mem_filter.mp (List.of_mem_zip hxy).2).2
  rw [hes] at hh hcontributes ⊢
  exact seeded_of_renders hr hrenders hcontributes hh

/-- A run that reports a misfit stops at the node that it is located at. -/
theorem stops_of_misfit (hr : r.Tame raw) {root : Node}
    (hroot : ∀ n ∈ root.walk, n.strategy = .absent ∨ ∃ family e, r.create family e = .ok n.strategy)
    (token : Option CancelToken) {c : Cache} (hc : c.Over raw r.representations) {p : String}
    {cause : Fault} (h : (bind token root (.ofCache c)).1 = .error (.fault (.located p cause)))
    (hm : cause.misfit = true) :
    ∃ n ∈ root.walk, n.path = p ∧ (bind token root (.ofCache c)).2.started.getLast? = some n ∧
      (∃ u, ownStep n u = .error (.fault cause)) ∧ ∃ v, fits n.children v = .error (.fault cause) := by
  have hstops := bind_stops token root (s := .ofCache c) hc h
  generalize (bind token root (.ofCache c)).2 = t at hstops
  generalize hf : Failure.fault (.located p cause) = f at hstops
  cases hstops with
  | cancelled => simp [cancelledAt] at hf
  | @step n u g hn hu ho =>
    have hraised := neutral_or_fits_of_raises hr (hroot n hn) (ownStep_raises hu ho)
    obtain ⟨hp, rfl, v, hv⟩ := fits_of_locate hraised hf.symm hm
    exact ⟨n, hn, hp, by simp [after], ⟨u, ho⟩, v, hv⟩

/-- However the default registry is extended, a node that stands for a position without a directive is
seeded. A value that is of the wrong kind for its children, or too short, is reported at a node that
stands for positions with a directive only. -/
theorem misfit_directed (more : List Registry.Registration) (s : Settings) {schema : Value}
    {root : Node} (h : compile schema (more.foldl Registry.register .default) s = .ok root) :
    let r := more.foldl Registry.register .default
    let pairs := root.placed.zip (contributing s.keyword schema)
    (contributes s.keyword schema = true → pairs.map (fun z => z.1.2) = root.walk) ∧
      (contributes s.keyword schema = false → root = .mk rootPath .absent .leaf) ∧
      (∀ x y, (x, y) ∈ pairs → holds s.keyword y.2 = false → Seeded y.2 x.2) ∧
      ∀ raw, r.Tame raw → ∀ (token : Option CancelToken) (c : Cache), c.Over raw r.representations →
        ∀ p cause, (bind token root (.ofCache c)).1 = .error (.fault (.located p cause)) →
          cause.misfit = true →
            ∃ n, (bind token root (.ofCache c)).2.started.getLast? = some n ∧ n.path = p ∧
              (∃ way y, ((way, n), y) ∈ pairs) ∧
              ∀ way y, ((way, n), y) ∈ pairs → holds s.keyword y.2 = true := by
  intro r pairs
  have hextends : Registry.default.Extends r := Registry.extends_foldl _ more
  have hnone : compileNode r s schema rootPath = .ok none → contributes s.keyword schema = false :=
    fun h => (isSome_of_compile h).symm
  refine ⟨?covered, ?absent, ?seeded, ?misfit⟩
  case covered =>
    intro hc
    rcases compile_eq_ok h with hroot | ⟨hroot, -⟩
    · exact map_zip_placed hroot
    · simp [hnone hroot] at hc
  case absent =>
    intro hc
    rcases compile_eq_ok h with hroot | ⟨-, rfl⟩
    · simp [← isSome_of_compile hroot] at hc
    · rfl
  case seeded =>
    intro x y hxy hh
    rcases compile_eq_ok h with hroot | ⟨hroot, -⟩
    · exact seeded_of_compile hextends hroot hxy hh
    · simp [pairs, contributing_eq_nil (hnone hroot)] at hxy
  case misfit =>
    intro raw hr token c hover p cause hbind hmisfit
    obtain ⟨n, hn, hp, hlast, ⟨u, ho⟩, v, hv⟩ :=
      stops_of_misfit hr (fun n hn => strategy_of_compile h hn) token hover hbind hmisfit
    rcases compile_eq_ok h with hroot | ⟨-, rfl⟩
    · refine ⟨n, hlast, hp, ?stands, fun way y hxy => ?directed⟩
      case stands =>
        rw [← map_zip_placed hroot] at hn
        obtain ⟨⟨⟨way, m⟩, y⟩, hz, rfl⟩ := List.mem_map.mp hn
        exact ⟨way, y, hz⟩
      case directed =>
        -- without a directive the node is seeded, and the own step of a seed reports no fault
        by_contra hh
        have hseeded := seeded_of_compile hextends hroot hxy (by simpa using hh)
        rcases hseeded.ownStep u with ⟨e, he⟩ | ⟨k, hk⟩
        · simp [he] at ho
        · simp [hk] at ho
    · -- the absent root has no children that a value could fail to hold
      obtain rfl : n = .mk rootPath .absent .leaf := by
        simpa [Node.walk, Node.walkChildren] using hn
      simp [Node.children, fits] at hv

/-- The item of an inferred sequence is bound to null by a family of its own, and has a named child. -/
theorem misfit_directed_null :
    let own : Family := ⟨"own", none, fun e => .ok ⟨"own", e, none, .custom fun v => .ok (v, true)⟩⟩
    let more := [Registry.Registration.family own]
    let r := more.foldl Registry.register .default
    let item : Value := .object [(.text "bind", .text "own:"),
      (.text "properties", .object [(.text "a", .object [(.text "bind", .text "nil:")])])]
    let schema : Value := .object [(.text "items", .array [item])]
    let child := Node.mk "$[0].a" .absent .leaf
    let node := Node.mk "$[0]" ⟨"own", "", none, .custom fun v => .ok (v, true)⟩
      (.named [(.text "a", child)])
    let root := Node.mk "$" ⟨"slice", "1", none, .sequence 1⟩ (.indexed [some node])
    let c := Cache.ofDocument [] r.representations
    compile schema r {} = .ok root ∧ r.Tame [] ∧ c.Over [] r.representations ∧
      (bind none root (.ofCache c)).1 = .error (.fault (.located "$[0]" (.cast "mapping" .null))) ∧
      ∃ way n y, ((way, n), y) ∈ root.placed.zip (contributing "bind" schema) ∧
        n.path = "$[0]" ∧ holds "bind" y.2 = true := by
  intro own more r item schema child node root c
  have h : compile schema r {} = .ok root := by
    simp only [root, node, child, schema, item, r, more, own]
    rfl
  have hr : r = ⟨Registry.builtinFamilies ++ [own], Registry.default.representations⟩ := by
    simp only [r, more, own]
    rfl
  have htame : r.Tame [] := by
    rw [hr]
    refine ⟨fun f hf hb e t d g hmake hx => ?_, fun x hx hb => absurd hx hb⟩
    obtain rfl := List.mem_singleton.mp ((List.mem_append.mp hf).resolve_left hb)
    obtain rfl := Except.ok.inj hmake
    cases hx
  have hover := Cache.over_ofDocument [] r.representations
  have hbind : (bind none root (.ofCache c)).1 =
      .error (.fault (.located "$[0]" (.cast "mapping" .null))) := rfl
  obtain ⟨-, -, -, hmisfit⟩ := misfit_directed more {} h
  obtain ⟨n, -, hp, ⟨way, y, hy⟩, hdirected⟩ := hmisfit [] htame none c hover _ _ hbind rfl
  exact ⟨h, htame, hover, hbind, way, n, y, hy, hp, hdirected way y hy⟩

end Tree

end Reshape
