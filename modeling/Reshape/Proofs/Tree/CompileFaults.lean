import Reshape.Proofs.Registry
import Reshape.Proofs.Tree.Pruning

/-! Which failure ends compiling. The compiler comes to every position twice: on the way down it checks
that a directive is a text, on the way up it looks the family up and makes the strategy, if the
position contributes. `Halts` says how it can stop at either stage; compiling ends where it stops
first. With orderly families that is the first thing that is `Faulty`. -/

namespace Reshape.Tree

variable {r : Registry} {s : Settings}

/-- Every position of a schema twice, in the order in which they are checked. -/
def tour (schema : Value) : List (Stage × List Branch × Value) := schemaBranching.tour schema

/-- How compiling stops at a position of a schema that stands at `path`, at a stage. -/
inductive Halts (r : Registry) (s : Settings) (path : String) :
    Stage × List Branch × Value → Failure → Prop
  /-- The keyword holds something else than a text. -/
  | directive {way : List Branch} {es : List (Key × Value)} {v : Value} :
    Entries.find? (.text s.keyword) es = some v → (∀ t, v ≠ .text t) →
    Halts r s path (.down, way, .object es)
      (.fault (.compile (.directive s.keyword) (some (pathAlong path way))))
  /-- There is no strategy for the position's directive. -/
  | strategy {way : List Branch} {es : List (Key × Value)} {d : Directive} {f : Failure} :
    contributes s.keyword (.object es) = true → Directs r s es d →
    strategyAt r d (pathAlong path way) = .error f → Halts r s path (.up, way, .object es) f

/-! ### Stages -/

theorem halts_cons {path : String} {st : Stage} {b : Branch} {way : List Branch} {v : Value}
    {f : Failure} :
    Halts r s path (st, b :: way, v) f ↔ Halts r s (b.extend path) (st, way, v) f := by
  constructor
  · intro h
    cases h with
    | directive hf hv => exact .directive hf hv
    | strategy hc hd ht => exact .strategy hc hd ht
  · intro h
    cases h with
    | directive hf hv => exact @Halts.directive _ _ _ (b :: way) _ _ hf hv
    | strategy hc hd ht => exact @Halts.strategy _ _ _ (b :: way) _ _ _ hc hd ht

theorem directiveOf_eq_error {es : List (Key × Value)} {path : String} {f : Failure} :
    directiveOf r s es path = .error f ↔ Halts r s path (.down, [], .object es) f := by
  constructor
  · intro h
    unfold directiveOf at h
    split at h
    · cases h
    · cases h
    · next v hv hf =>
      obtain rfl := Except.error.inj h
      exact .directive hf hv
  · intro h
    cases h with
    | directive hf hv =>
      unfold directiveOf
      rw [hf]
      split
      · next hn => cases hn
      · next t ht => exact absurd (Option.some.inj ht) (hv t)
      · rfl

theorem directiveOf_eq_none {es : List (Key × Value)} {path : String} :
    directiveOf r s es path = .ok none ↔ Entries.find? (.text s.keyword) es = none := by
  unfold directiveOf
  split <;> simp_all

theorem directs_eq {es : List (Key × Value)} {path : String} {d : Option Directive} {q : Directive}
    (hd : directiveOf r s es path = .ok d) (hq : Directs r s es q) : q = d.getD (inferred es) := by
  cases hq with
  | own hf =>
    rw [directiveOf, hf] at hd
    obtain rfl := Except.ok.inj hd
    rfl
  | mapping hf hp =>
    rw [directiveOf, hf] at hd
    obtain rfl := Except.ok.inj hd
    simp [inferred, hp]
  | sequence hf hp hv =>
    rw [directiveOf, hf] at hd
    obtain rfl := Except.ok.inj hd
    simp [inferred, hp, itemCount?_eq, hv]

theorem assemble_eq_error {es : List (Key × Value)} {path : String} {d : Option Directive}
    {ys : List (Branch × Option Node)} {f : Failure} (hd : directiveOf r s es path = .ok d)
    (hys : compileParts r s path (parts (.object es)) = .ok ys) :
    assemble r path es d (childrenOver es ys) = .error f ↔ Halts r s path (.up, [], .object es) f := by
  have hcontributes := contributes_iff_of_parts hd (forall₂_of_compileParts hys)
  by_cases hne : d ≠ none ∨ childrenOver es ys ≠ .leaf
  · rw [assemble_eq hne, Except.map_eq_error]
    constructor
    · exact fun h => .strategy (hcontributes.mpr hne) (directs_of_compile hd hys hne) h
    · intro h
      cases h with
      | strategy hc hq ht =>
        obtain rfl := directs_eq hd hq
        exact ht
  · have hno : contributes s.keyword (.object es) = false :=
      Bool.eq_false_iff.mpr fun h => hne (hcontributes.mp h)
    obtain ⟨rfl, hl⟩ : d = none ∧ childrenOver es ys = .leaf := by tauto
    simp only [hl, assemble, reduceCtorEq, false_iff]
    intro h
    cases h with
    | strategy hc hq ht => simp [hc] at hno

/-! ### Whole schemas -/

/-- Compiling a position fails where it stops first, at the position or below it. -/
theorem compileNode_eq_error {v : Value} {path : String} {f : Failure} :
    compileNode r s v path = .error f ↔ First (Halts r s path) (tour v) f := by
  induction v using schemaBranching.ind generalizing path f with
  | h v ih =>
    rw [tour, schemaBranching.tour_eq, List.cons_append, First.cons_iff, First.append_iff]
    cases v with
    | object es =>
      have hparts : ∀ g, compileParts r s path (parts (.object es)) = .error g ↔
          First (Halts r s path) ((parts (.object es)).flatMap fun x =>
            (tour x.2).map fun y => (y.1, x.1 :: y.2.1, y.2.2)) g := by
        intro g
        rw [compileParts, Except.mapM_eq_error, First.flatMap_iff]
        refine First.congr_iff fun x hx b => ?_
        have hbelow : ∀ y ∈ tour x.2, ∀ b, Halts r s path (y.1, x.1 :: y.2.1, y.2.2) b ↔
            Halts r s (x.1.extend path) y b := fun _ _ _ => halts_cons
        rw [First.map_iff, First.congr_iff hbelow, ← ih x hx, Except.map_eq_error]
      rw [compileNode_eq, First.singleton_iff, ← First.forall_not_iff]
      refine Except.bind_eq_error_iff (fun _ => directiveOf_eq_error) fun d hd => ?_
      exact Except.bind_eq_error_iff hparts fun ys hys => assemble_eq_error hd hys
    | _ =>
      simp only [compileNode, parts, schemaBranching, List.flatMap_nil, First.not_nil,
        First.singleton_iff]
      refine iff_of_false (by simp) ?_
      rintro (h | ⟨-, h | ⟨-, h⟩⟩) <;> cases h

theorem compile_of_default_missing (hdefault : r.contains s.defaultFamily = false) (schema : Value) :
    compile schema r s = .error (.fault (.unsupportedFamily s.defaultFamily none)) := by
  simp [compile, hdefault]

/-- With its default family there, compiling a schema fails where it stops first. -/
theorem compile_halts (hdefault : r.contains s.defaultFamily = true) {schema : Value} {f : Failure} :
    compile schema r s = .error f ↔ First (Halts r s rootPath) (tour schema) f := by
  rw [← compileNode_eq_error, compile]
  simp only [hdefault, Bool.not_true, Bool.false_eq_true, if_false]
  rcases compileNode r s schema rootPath with g | _ | n <;>
    simp [pure, Except.pure]

/-! ### Orderly families -/

/-- What is wrong with a position of a schema that stands at `path`, at a stage. -/
inductive Faulty (r : Registry) (s : Settings) (path : String) :
    Stage × List Branch × Value → Failure → Prop
  /-- The keyword holds something else than a text. -/
  | directive {way : List Branch} {es : List (Key × Value)} {v : Value} :
    Entries.find? (.text s.keyword) es = some v → (∀ t, v ≠ .text t) →
    Faulty r s path (.down, way, .object es)
      (.fault (.compile (.directive s.keyword) (some (pathAlong path way))))
  /-- There is no directive, but one below, and the family that the keys stand for is missing. -/
  | family {way : List Branch} {es : List (Key × Value)} :
    Entries.find? (.text s.keyword) es = none →
    (∃ x ∈ parts (.object es), contributes s.keyword x.2 = true) →
    r.contains (inferred es).family = false →
    Faulty r s path (.up, way, .object es)
      (.fault (.unsupportedFamily (inferred es).family (some (pathAlong path way))))
  /-- The factory of the position's family rejects its expression. -/
  | expression {way : List Branch} {es : List (Key × Value)} {d : Directive} {f : Family}
    {name text reason : String} {p : Option String} :
    contributes s.keyword (.object es) = true → Directs r s es d → r.find? d.family = some f →
    f.make d.expression = .error (.fault (.invalidExpression name text reason p)) →
    Faulty r s path (.up, way, .object es)
      (.fault (.invalidExpression name text reason (some (pathAlong path way))))

/-- A family is missing, or its factory rejects the expression. -/
theorem strategyAt_eq_error {d : Directive} (hr : ∀ f, r.find? d.family = some f → f.Orderly)
    {path : String} {f : Failure} :
    strategyAt r d path = .error f ↔
      r.contains d.family = false ∧ f = .fault (.unsupportedFamily d.family (some path)) ∨
        ∃ fam name text reason p, r.find? d.family = some fam ∧
          fam.make d.expression = .error (.fault (.invalidExpression name text reason p)) ∧
          f = .fault (.invalidExpression name text reason (some path)) := by
  unfold strategyAt
  cases hc : r.contains d.family with
  | false =>
    have hnone : r.find? d.family = none := by simpa [Registry.contains] using hc
    simp [hnone, eq_comm]
  | true =>
    obtain ⟨fam, hfam⟩ := Registry.find?_of_contains hc
    have ho := hr fam hfam
    rw [Registry.create_of_orderly hfam ho]
    rcases ho d.expression with ⟨t, ht, -⟩ | ⟨name, text, reason, p, he⟩
    · simp [hfam, ht]
    · simp [hfam, he, eq_comm]

/-- With orderly families, compiling stops exactly where something is wrong. -/
theorem halts_iff_faulty (hr : ∀ f ∈ r.families, f.Orderly)
    (hdefault : r.contains s.defaultFamily = true) {path : String}
    {y : Stage × List Branch × Value} {f : Failure} : Halts r s path y f ↔ Faulty r s path y f := by
  have hfound : ∀ name f, r.find? name = some f → f.Orderly :=
    fun _ f hf => hr f (Registry.mem_of_find? hf)
  constructor
  · intro h
    cases h with
    | directive hf hv => exact .directive hf hv
    | @strategy way es d f hc hd ht =>
      rcases (strategyAt_eq_error (hfound _)).mp ht with
        ⟨hm, rfl⟩ | ⟨fam, _, _, _, _, hfam, hmake, rfl⟩
      · have hf : Entries.find? (.text s.keyword) es = none := by
          cases hd with
          | own hf => simp [Registry.contains_splitIn hdefault] at hm
          | mapping hf hp => exact hf
          | sequence hf hp hv => exact hf
        have hnone : directiveOf r s es path = .ok none := directiveOf_eq_none.mpr hf
        obtain rfl := directs_eq hnone hd
        exact .family hf ((contributes_iff.mp hc).resolve_left (by simp [holds, Entries.has, hf])) hm
      · exact .expression hc hd hfam hmake
  · intro h
    cases h with
    | directive hf hv => exact .directive hf hv
    | family hf hx hm =>
      obtain ⟨x, hx, hcx⟩ := hx
      exact .strategy (contributes_iff.mpr (.inr ⟨x, hx, hcx⟩)) (directs_inferred hf hx)
        ((strategyAt_eq_error (hfound _)).mpr (.inl ⟨hm, rfl⟩))
    | expression hc hd hfam hm =>
      exact .strategy hc hd ((strategyAt_eq_error (hfound _)).mpr (.inr ⟨_, _, _, _, _, hfam, hm, rfl⟩))

theorem compile_eq_error (hr : ∀ f ∈ r.families, f.Orderly)
    (hdefault : r.contains s.defaultFamily = true) {schema : Value} {f : Failure} :
    compile schema r s = .error f ↔ First (Faulty r s rootPath) (tour schema) f := by
  rw [compile_halts hdefault]
  exact First.congr_iff fun _ _ _ => halts_iff_faulty hr hdefault

/-- A schema does not compile exactly if the default family is missing or something is wrong with a
position. The default family is checked first; else the first thing that is wrong on the tour is
reported. Families of positions are missing only where the keys of the position stand for one. -/
theorem compile_faults (hr : ∀ f ∈ r.families, f.Orderly) (schema : Value) :
    (r.contains s.defaultFamily = false →
      compile schema r s = .error (.fault (.unsupportedFamily s.defaultFamily none))) ∧
    (r.contains s.defaultFamily = true → ∀ f,
      compile schema r s = .error f ↔ First (Faulty r s rootPath) (tour schema) f) ∧
    ((∃ f, compile schema r s = .error f) ↔ r.contains s.defaultFamily = false ∨
      ∃ y ∈ positions schema, ∃ st f, Faulty r s rootPath (st, y) f) ∧
    ∀ family path, compile schema r s = .error (.fault (.unsupportedFamily family (some path))) →
      ∃ way es, (way, .object es) ∈ positions schema ∧ path = pathAlong rootPath way ∧
        Entries.find? (.text s.keyword) es = none ∧ r.contains family = false ∧
        (family = "map" ∧ hasProperties es = true ∨
          family = "slice" ∧ hasProperties es = false ∧ (positional? es).isSome = true) := by
  have hmissing : r.contains s.defaultFamily = false →
      compile schema r s = .error (.fault (.unsupportedFamily s.defaultFamily none)) := by
    intro hd
    simp [compile, hd]
  refine ⟨hmissing, fun hd f => compile_eq_error hr hd, ?iff, ?inferred⟩
  case iff =>
    cases hd : r.contains s.defaultFamily with
    | false => exact iff_of_true ⟨_, hmissing hd⟩ (.inl rfl)
    | true =>
      simp only [compile_eq_error hr hd, First.exists_iff, reduceCtorEq, false_or]
      constructor
      · rintro ⟨⟨st, y⟩, hy, f, hf⟩
        exact ⟨y, schemaBranching.mem_tour.mp hy, st, f, hf⟩
      · rintro ⟨y, hy, st, f, hf⟩
        exact ⟨(st, y), schemaBranching.mem_tour.mpr hy, f, hf⟩
  case inferred =>
    intro family path h
    cases hd : r.contains s.defaultFamily with
    | false => simp [hmissing hd] at h
    | true =>
      obtain ⟨⟨st, way, v⟩, hy, hf⟩ := ((compile_eq_error hr hd).mp h).exists_mem
      cases hf with
      | @family way es hkeyword hx hm =>
        refine ⟨way, es, schemaBranching.mem_tour.mp hy, rfl, hkeyword, hm, ?_⟩
        obtain ⟨x, hx, -⟩ := hx
        rcases inferred_of_part hx with ⟨hp, hi⟩ | ⟨vs, hp, hv, hi⟩
        · exact .inl ⟨by rw [hi], hp⟩
        · exact .inr ⟨by rw [hi], hp, by rw [hv]; rfl⟩

/-- A sequence without a family is reported before a directive further on, which is no text. -/
theorem compile_faults_sequence :
    let r : Registry :=
      ⟨[⟨"nil", none, fun _ => .ok .absent⟩, ⟨"map", none, fun _ => .ok .mapping⟩], []⟩
    let s : Settings := { defaultFamily := "nil" }
    let schema := Value.object [("properties", .object
      [("a", .object [("items", .array [.object [("bind", .text "")]])]),
        ("b", .object [("bind", .null)])])]
    (∀ f ∈ r.families, f.Orderly) ∧
      First (Faulty r s rootPath) (tour schema)
        (.fault (.unsupportedFamily "slice" (some "$.a"))) := by
  intro r s schema
  have hr : ∀ f ∈ r.families, f.Orderly := by
    intro f hf e
    simp only [r, List.mem_cons, List.not_mem_nil, or_false] at hf
    rcases hf with rfl | rfl
    · exact .inl ⟨.absent, rfl, rfl⟩
    · exact .inl ⟨.mapping, rfl, rfl⟩
  obtain ⟨-, hfirst, -, -⟩ := compile_faults (s := s) hr schema
  exact ⟨hr, (hfirst rfl _).mp rfl⟩

end Reshape.Tree
