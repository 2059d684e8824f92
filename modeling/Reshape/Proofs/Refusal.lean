import Reshape.Proofs.Schema.Uri
import Reshape.Proofs.Staging
import Reshape.Proofs.Tree.CompileFaults

/-! What leaves the compiler of the default registry. Whatever is wrong with a schema is reported as a
compile fault, but for texts that are nested too deep, values of `$schema` that cannot be looked up,
crashes of the check of a schema's form and queries that the parser cannot read: `compile_contained`
says which crash leaves the compiler, and when. -/

namespace Reshape

/-- The faults that a compiler reports. -/
inductive Fault.IsCompile : Fault → Prop
  | compile (reason : CompileReason) (path : Option String) : IsCompile (.compile reason path)
  | unsupportedFamily (family : String) (path : Option String) :
    IsCompile (.unsupportedFamily family path)
  | invalidExpression (family expression reason : String) (path : Option String) :
    IsCompile (.invalidExpression family expression reason path)

/-! ### Schema texts -/

namespace SchemaSource

/-- The text of a schema is nested deeper than JSON can be read. -/
inductive TooDeep : SchemaSource → Prop
  | text {t : String} : Json.parseText .nearest t = .error .tooDeep → TooDeep (.text t)
  | bytes {b : Text.Bytes} : Json.parseBytes .nearest b = .error .tooDeep → TooDeep (.bytes b)

theorem root_eq_error {v : Value} {f : Failure} (h : entries.root v = .error f) :
    f = compileFault (.root v.kind) := by
  cases v <;> cases h <;> rfl

theorem jsonFailure_eq_crash {f : Json.Fault} {c : Crash} :
    jsonFailure f = .crash c ↔ f = .tooDeep ∧ c = .tooDeep := by
  cases f <;> simp [jsonFailure, compileFault, eq_comm]

theorem root_crash {x : Except Json.Fault Value} {c : Crash} :
    (x.mapError jsonFailure >>= entries.root) = .error (.crash c) ↔
      x = .error .tooDeep ∧ c = .tooDeep := by
  cases x with
  | error f => simp [Except.mapError, jsonFailure_eq_crash]
  | ok v =>
    have hroot : entries.root v ≠ .error (.crash c) := fun h => by cases root_eq_error h
    simpa [Except.mapError] using hroot

theorem root_fault {x : Except Json.Fault Value} {f : Fault}
    (h : (x.mapError jsonFailure >>= entries.root) = .error (.fault f)) : f.IsCompile := by
  cases x with
  | error g =>
    cases g <;> cases h
    all_goals exact .compile _ _
  | ok v =>
    cases root_eq_error h
    exact .compile _ _

variable {source : SchemaSource}

theorem entries_crash {c : Crash} :
    source.entries = .error (.crash c) ↔ source.TooDeep ∧ c = .tooDeep := by
  cases source with
  | mapping es =>
    refine iff_of_false (fun h => by cases h) ?_
    rintro ⟨h, -⟩
    cases h
  | text t =>
    refine root_crash.trans (and_congr_left fun _ => ⟨.text, fun h => ?_⟩)
    cases h with
    | text h => exact h
  | bytes b =>
    refine root_crash.trans (and_congr_left fun _ => ⟨.bytes, fun h => ?_⟩)
    cases h with
    | bytes h => exact h

theorem entries_fault {f : Fault} (h : source.entries = .error (.fault f)) : f.IsCompile := by
  cases source with
  | mapping es => cases h
  | text t => exact root_fault h
  | bytes b => exact root_fault h

end SchemaSource

/-! ### Declared dialects -/

namespace Schema

/-- A value of `$schema` that cannot be looked up, and what looking it up raises. -/
inductive Undeclarable : Value → Crash → Prop
  | array (items : List Value) : Undeclarable (.array items) .wrongKind
  | object (fields : List (Key × Value)) : Undeclarable (.object fields) .wrongKind
  /-- The brackets of the address do not enclose a host. -/
  | address {t : String} : Host.isAuthority (Uri.authorityOf t) = false →
    Undeclarable (.text t) .badValue
  /-- Of what is no text, only what counts as false is ignored. -/
  | other {v : Value} : (∀ t, v ≠ .text t) → (∀ items, v ≠ .array items) →
    (∀ fields, v ≠ .object fields) → v.isTruthy = true → Undeclarable v .missingAttribute

theorem namedDialect?_eq_error {v : Value} {c : Crash} :
    namedDialect? v = .error c ↔ Undeclarable v c := by
  constructor
  · intro h
    unfold namedDialect? at h
    split at h
    · next t =>
      rcases ht : Uri.normalized t with c' | u <;> rw [ht] at h <;> cases h
      obtain ⟨haddress, rfl⟩ := Uri.normalized_eq_error.mp ht
      exact .address haddress
    · cases h
      exact .array _
    · cases h
      exact .object _
    · next htext harray hobject =>
      split_ifs at h with htruthy
      cases h
      exact .other htext harray hobject htruthy
  · intro h
    cases h with
    | array | object => rfl
    | address h =>
      simp only [namedDialect?, Uri.normalized_eq_error.mpr ⟨h, rfl⟩, Except.error_bind]
    | other htext harray hobject htruthy =>
      unfold namedDialect?
      split
      · next t => exact absurd rfl (htext t)
      · next items => exact absurd rfl (harray items)
      · next fields => exact absurd rfl (hobject fields)
      · rw [if_pos htruthy]

theorem declaredDialect?_eq_error {es : List (Key × Value)} {c : Crash} :
    declaredDialect? (.object es) = .error c ↔
      ∃ v, Entries.find? (.text "$schema") es = some v ∧ Undeclarable v c := by
  cases hfind : Entries.find? (.text "$schema") es with
  | none =>
    have hdeclared : declaredDialect? (.object es) = .ok none := by
      simp [declaredDialect?, mentions, Entries.has, hfind, pure, Except.pure]
    simp [hdeclared]
  | some v =>
    have hdeclared : declaredDialect? (.object es) = namedDialect? v := by
      simp [declaredDialect?, mentions, Value.get?, Entries.has, hfind]
    simp [hdeclared, namedDialect?_eq_error]

end Schema

/-! ### Queries -/

namespace Strategy

/-- A query that cannot be parsed, and what parsing it raises. -/
inductive Unreadable (e : String) : Crash → Prop
  | digits : JmesPath.parse e = .error .tooManyDigits → Unreadable e .badValue
  | depth : JmesPath.parse e = .error .tooDeep → Unreadable e .tooDeep

end Strategy

/-! ### Built-in families -/

namespace Family

theorem orderly_sequence : Orderly ⟨"slice", none, Strategy.sequence⟩ := by
  intro e
  simp only [Strategy.sequence]
  split
  · exact .inr ⟨_, _, _, _, rfl⟩
  · split_ifs
    · exact .inr ⟨_, _, _, _, rfl⟩
    · exact .inl ⟨_, rfl, rfl⟩

theorem orderly_jsonPath (family name : String) :
    Orderly ⟨family, some name, Strategy.jsonPath family name⟩ := by
  intro e
  simp only [Strategy.jsonPath]
  split
  · exact .inl ⟨_, rfl, rfl⟩
  · exact .inr ⟨_, _, _, _, rfl⟩

theorem orderly_pointer : Orderly ⟨"pointer", some "json", Strategy.pointer⟩ := by
  intro e
  simp only [Strategy.pointer]
  split
  · exact .inl ⟨_, rfl, rfl⟩
  · exact .inr ⟨_, _, _, _, rfl⟩

/-- Of the built-in families, only that of queries is not orderly. -/
theorem orderly_of_builtin {f : Family} (hf : f ∈ Registry.builtinFamilies)
    (hname : f.name ≠ "jmes") : f.Orderly := by
  simp only [Registry.builtinFamilies, List.mem_cons, List.not_mem_nil, or_false] at hf
  rcases hf with rfl | rfl | rfl | rfl | rfl | rfl | rfl
  · exact fun _ => .inl ⟨_, rfl, rfl⟩
  · exact fun _ => .inl ⟨_, rfl, rfl⟩
  · exact orderly_sequence
  · exact absurd rfl hname
  · exact orderly_jsonPath "jp" "json"
  · exact orderly_pointer
  · exact orderly_jsonPath "exact" "decimal"

end Family

theorem Registry.create_query (e : String) :
    Registry.default.create "jmes" e = Strategy.jmesPath e := by
  have hcreate : Registry.default.create "jmes" e =
      (Strategy.jmesPath e >>= fun t => if t.representation = some "json" then pure t
        else .error (.crash (.registry (.mismatch "jmes" (some "json") t.representation)))) := rfl
  rw [hcreate, Strategy.jmesPath]
  rcases JmesPath.parse e with (_ | _ | _) | q <;> rfl

namespace Tree

variable {d : Directive} {path : String}

theorem strategyAt_query (hd : d.family = "jmes") :
    strategyAt .default d path = match JmesPath.parse d.expression with
      | .ok q => .ok ⟨"jmes", d.expression, some "json", .jmesPath q⟩
      | .error (.malformed detail) =>
        .error (.fault (.invalidExpression "jmes" d.expression detail (some path)))
      | .error .tooManyDigits => .error (.crash .badValue)
      | .error .tooDeep => .error (.crash .tooDeep) := by
  have hcontains : Registry.default.contains "jmes" = true := rfl
  rw [strategyAt, hd, hcontains, Registry.create_query, Strategy.jmesPath]
  rcases JmesPath.parse d.expression with (_ | _ | _) | q <;> rfl

/-- A strategy of the default registry is refused by a compile fault, or a query is unreadable. -/
theorem strategyAt_default_error {f : Failure} (h : strategyAt .default d path = .error f) :
    (∃ g : Fault, f = .fault g ∧ g.IsCompile) ∨
      ∃ c, f = .crash c ∧ d.family = "jmes" ∧ Strategy.Unreadable d.expression c := by
  by_cases hd : d.family = "jmes"
  · rw [strategyAt_query hd] at h
    split at h
    · cases h
    · cases h
      exact .inl ⟨_, rfl, .invalidExpression ..⟩
    · next hp =>
      cases h
      exact .inr ⟨_, rfl, hd, .digits hp⟩
    · next hp =>
      cases h
      exact .inr ⟨_, rfl, hd, .depth hp⟩
  · have horderly : ∀ f, Registry.default.find? d.family = some f → f.Orderly := by
      intro f hf
      have hname : f.name = d.family := by simpa using List.find?_some hf
      exact Family.orderly_of_builtin (Registry.mem_of_find? hf) (hname ▸ hd)
    rcases (strategyAt_eq_error horderly).mp h with ⟨-, rfl⟩ | ⟨_, _, _, _, _, -, -, rfl⟩
    · exact .inl ⟨_, rfl, .unsupportedFamily ..⟩
    · exact .inl ⟨_, rfl, .invalidExpression ..⟩

theorem strategyAt_of_unreadable (hd : d.family = "jmes") {c : Crash}
    (h : Strategy.Unreadable d.expression c) : strategyAt .default d path = .error (.crash c) := by
  cases h with
  | digits h | depth h => rw [strategyAt_query hd, h]

/-- Where the compiler stops, something is wrong that it reports, or a query is unreadable. -/
theorem halts_default {s : Settings} {y : Stage × List Branch × Value} {f : Failure}
    (h : Halts .default s path y f) :
    (∃ g : Fault, f = .fault g ∧ g.IsCompile) ∨
      ∃ c way es d, f = .crash c ∧ y = (.up, way, .object es) ∧
        contributes s.keyword (.object es) = true ∧ Directs .default s es d ∧
        d.family = "jmes" ∧ Strategy.Unreadable d.expression c := by
  cases h with
  | directive hf hv => exact .inl ⟨_, rfl, .compile ..⟩
  | @strategy way es d f hc hd ht =>
    rcases strategyAt_default_error ht with hfault | ⟨c, rfl, hfamily, hquery⟩
    · exact .inl hfault
    · exact .inr ⟨c, way, es, d, rfl, rfl, hc, hd, hfamily, hquery⟩

end Tree

/-! ### Binders -/

namespace Binder

variable {source : SchemaSource} {s : Settings}

/-- The crashes of the stage that checks the form of a schema. -/
inductive Unchecked (source : SchemaSource) (s : Settings) : Crash → Prop
  | text : source.TooDeep → Unchecked source s .tooDeep
  | dialect {es : List (Key × Value)} {v : Value} {c : Crash} : source.entries = .ok es →
    Entries.find? (.text "$schema") es = some v → Schema.Undeclarable v c → Unchecked source s c
  | form {es : List (Key × Value)} {d : Dialect} {c : Crash} : source.entries = .ok es →
    dialectOf (.object es) s = .ok d → Schema.isSchema d (.object es) = .error c →
    Unchecked source s c

/-- The crashes that leave the compiler: those of the check, and of an unreadable query at the first
position where compiling the tree stops. -/
inductive Uncontained (source : SchemaSource) (s : Settings) : Crash → Prop
  | check {c : Crash} : Unchecked source s c → Uncontained source s c
  | query {es fs : List (Key × Value)} {d : Dialect}
    {before rest : List (Stage × List Branch × Value)} {way : List Branch} {q : Directive} {c : Crash} :
    checked source s = .ok (es, d) → Registry.default.contains s.defaultFamily = true →
    Tree.tour (.object es) = before ++ (.up, way, .object fs) :: rest →
    (∀ y ∈ before, ∀ f, ¬ Tree.Halts .default s Tree.rootPath y f) →
    Tree.contributes s.keyword (.object fs) = true → Tree.Directs .default s fs q →
    q.family = "jmes" → Strategy.Unreadable q.expression c → Uncontained source s c

theorem dialectOf_eq_error {es : List (Key × Value)} {c : Crash} :
    dialectOf (.object es) s = .error c ↔
      ∃ v, Entries.find? (.text "$schema") es = some v ∧ Schema.Undeclarable v c := by
  rw [← Schema.declaredDialect?_eq_error, dialectOf]
  cases Schema.declaredDialect? (.object es) <;> simp [pure, Except.pure]

theorem checked_crash {c : Crash} :
    checked source s = .error (.crash c) ↔ Unchecked source s c := by
  constructor
  · intro h
    rcases hentries : source.entries with f | es
    · rw [checked, hentries] at h
      cases h
      obtain ⟨hdeep, rfl⟩ := SchemaSource.entries_crash.mp hentries
      exact .text hdeep
    · rcases hdialect : dialectOf (.object es) s with c' | d
      · simp only [checked, hentries, hdialect, Except.ok_bind] at h
        cases h
        obtain ⟨v, hv, hdeclared⟩ := dialectOf_eq_error.mp hdialect
        exact .dialect hentries hv hdeclared
      · simp only [checked, hentries, hdialect, Except.ok_bind, Except.mapError] at h
        rcases hform : Schema.isSchema d (.object es) with c' | _ | _ <;> rw [hform] at h <;> cases h
        exact .form hentries hdialect hform
  · intro h
    cases h with
    | text h =>
      rw [checked, SchemaSource.entries_crash.mpr ⟨h, rfl⟩]
      rfl
    | @dialect es v c hentries hv hdeclared =>
      have hdialect : dialectOf (.object es) s = .error c :=
        dialectOf_eq_error.mpr ⟨v, hv, hdeclared⟩
      rw [checked, hentries, Except.ok_bind, hdialect]
      rfl
    | form hentries hdialect hform =>
      simp only [checked, hentries, hdialect, Except.ok_bind, Except.mapError, hform]
      rfl

theorem checked_fault {f : Fault} (h : checked source s = .error (.fault f)) : f.IsCompile := by
  rcases hentries : source.entries with g | es
  · rw [checked, hentries] at h
    cases h
    exact SchemaSource.entries_fault hentries
  · rcases hdialect : dialectOf (.object es) s with c | d <;>
      simp only [checked, hentries, hdialect, Except.ok_bind, Except.mapError] at h
    · cases h
    · rcases hform : Schema.isSchema d (.object es) with c | _ | _ <;> rw [hform] at h <;> cases h
      exact .compile ..

/-- Compiling fails in the check of the form, or the tree does not compile. -/
theorem compile_eq_error {r : Registry} {f : Failure} :
    compile source s r = .error f ↔ checked source s = .error f ∨
      ∃ es d, checked source s = .ok (es, d) ∧ Tree.compile (.object es) r s = .error f := by
  rcases hchecked : checked source s with g | ⟨es, d⟩
  · simp [compile_of_unchecked hchecked]
  · obtain ⟨x, -, hcompile⟩ := compile_of_checked (r := r) hchecked
    simp [hcompile, Except.map_eq_error]

theorem compile_crash {c : Crash} :
    compile source s .default = .error (.crash c) ↔ Uncontained source s c := by
  rw [compile_eq_error, checked_crash]
  constructor
  · rintro (h | ⟨es, d, hchecked, h⟩)
    · exact .check h
    · cases hdefault : Registry.default.contains s.defaultFamily with
      | false =>
        rw [Tree.compile_of_default_missing hdefault] at h
        cases h
      | true =>
        obtain ⟨before, y, rest, htour, hbefore, hy⟩ :=
          First.split_iff.mp ((Tree.compile_halts hdefault).mp h)
        rcases Tree.halts_default hy with ⟨_, hf, -⟩ | ⟨_, way, fs, q, hf, rfl, hc, hq, hfamily, he⟩
        · cases hf
        · cases hf
          exact .query hchecked hdefault htour hbefore hc hq hfamily he
  · intro h
    cases h with
    | check h => exact .inl h
    | query hchecked hdefault htour hbefore hc hq hfamily he =>
      refine .inr ⟨_, _, hchecked, ?_⟩
      rw [Tree.compile_halts hdefault, First.split_iff]
      exact ⟨_, _, _, htour, hbefore, .strategy hc hq (Tree.strategyAt_of_unreadable hfamily he)⟩

theorem compile_fault {f : Fault} (h : compile source s .default = .error (.fault f)) :
    f.IsCompile := by
  rcases compile_eq_error.mp h with h | ⟨es, d, -, h⟩
  · exact checked_fault h
  · cases hdefault : Registry.default.contains s.defaultFamily with
    | false =>
      rw [Tree.compile_of_default_missing hdefault] at h
      cases h
      exact .unsupportedFamily ..
    | true =>
      obtain ⟨y, -, hy⟩ := ((Tree.compile_halts hdefault).mp h).exists_mem
      rcases Tree.halts_default hy with ⟨g, hf, hg⟩ | ⟨_, _, _, _, hf, -⟩ <;> cases hf
      exact hg

/-- Compiling with the default registry fails with a compile fault or with a crash, and the last
exactly if the crash is one of those that are not contained. -/
theorem compile_contained (source : SchemaSource) (s : Settings) :
    (∀ c, compile source s .default = .error (.crash c) ↔ Uncontained source s c) ∧
      ∀ f, compile source s .default = .error (.fault f) → f.IsCompile :=
  ⟨fun _ => compile_crash, fun _ => compile_fault⟩

/-- The crash of compiling a schema, if there is one. -/
def crash? (source : SchemaSource) (s : Settings) : Option Crash :=
  match compile source s .default with
  | .error (.crash c) => some c
  | _ => none

theorem crash?_eq_some {c : Crash} :
    crash? source s = some c ↔ compile source s .default = .error (.crash c) := by
  unfold crash?
  split <;> simp_all

/-- The address of a dialect with a bracket that is not closed. -/
theorem compile_contained_address :
    Uncontained (.mapping [("$schema", .text "http://[")]) {} .badValue := by
  have hcrash : crash? (.mapping [("$schema", .text "http://[")]) {} = some .badValue := by
    decide +kernel
  exact ((compile_contained _ _).1 _).mp (crash?_eq_some.mp hcrash)

/-- Compiling can fail otherwise than with a compile fault: the value of `$schema` is a number. -/
theorem compile_not_contained :
    ¬ ∀ (source : SchemaSource) (s : Settings) (f : Failure), compile source s .default = .error f →
      ∃ g : Fault, f = .fault g ∧ g.IsCompile := by
  intro h
  have hcrash : crash? (.text "\x7b\"$schema\": 5\x7d") {} = some .missingAttribute := by
    decide +kernel
  obtain ⟨_, hf, -⟩ := h _ _ _ (crash?_eq_some.mp hcrash)
  cases hf

end Binder

end Reshape
