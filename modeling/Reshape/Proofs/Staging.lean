import Reshape.Proofs.Binder
import Reshape.Proofs.Schema.Identifier

/-! The stages of a binder. A schema's form is checked first, then its tree is compiled; whether
results are validated makes no difference to either. A bind with validation runs as one without, and
only then validates what is bound: it gives the same value, or it refuses the value and nothing else. -/

namespace Reshape

/-! ### Trees -/

namespace Tree

/-- Compiling a tree does not depend on whether its values will be validated. -/
theorem compile_validateOutput (schema : Value) (r : Registry) (s : Settings) (validates : Bool) :
    compile schema r { s with validateOutput := validates } = compile schema r s := by
  have hdirective : ∀ y ∈ positions schema, ∀ es, y.2 = .object es → ∀ path,
      directiveOf r { s with validateOutput := validates } es path = directiveOf r s es path :=
    fun _ _ _ _ _ => rfl
  have hkeeps : (compileNode r s schema rootPath).Keeps (fun _ => True)
      (compileNode r { s with validateOutput := validates } schema rootPath) :=
    compileNode_keeps (fun d path => .refl (strategyAt r d path)) hdirective rootPath
  unfold compile
  rw [hkeeps.eq fun _ => trivial]

/-- The faults of a run are located, or say that it was cancelled. -/
theorem Ends.ne_output {raw : Text.Bytes} {rs : List Representation} {n : Node} {f : Failure}
    (h : Ends raw rs n f) (message path : String) : f ≠ .fault (.output message path) := by
  intro hf
  cases h with
  | cancelled hm => cases hf
  | step hm hraises =>
    obtain ⟨_, _, hlocated⟩ := locate_eq_fault hf
    cases hlocated

end Tree

namespace Binder

variable {source : SchemaSource} {s : Settings} {r : Registry}

/-! ### Compiling -/

variable {es : List (Key × Value)} {d : Dialect}

theorem compile_of_unchecked {f : Failure} (h : checked source s = .error f) :
    compile source s r = .error f := by
  rw [compile_eq, h]
  rfl

/-- Once the form of a schema has been checked, compiling fails only as its tree does. -/
theorem compile_of_checked (h : checked source s = .ok (es, d)) :
    ∃ x, Schema.Validator.ofSchema d s.keyword false (.object es) = .ok x ∧
      compile source s r = (Tree.compile (.object es) r s).map fun root =>
        ⟨root, r, s, if s.validateOutput then some x else none⟩ := by
  obtain ⟨x, hx⟩ := Schema.ofSchema_of_isSchema (checked_eq_ok h).2 s.keyword false
  refine ⟨x, hx, ?_⟩
  rw [compile_eq, h]
  simp only [Except.ok_bind, hx, Except.mapError]
  rcases Tree.compile (.object es) r s with f | root
  · rfl
  · cases s.validateOutput <;> rfl

/-! ### Binding -/

/-- How a document is bound without and with validation, where a validator decides on the value. -/
inductive Staged (x : Schema.Validator) : Outcome Extraction → Outcome Extraction → Prop
  /-- What fails is not validated, and a validator has not refused it. -/
  | failed {f : Failure} : (∀ message path, f ≠ .fault (.output message path)) →
    Staged x (.error f) (.error f)
  /-- Where nothing is bound there is nothing to validate. -/
  | unbound : Staged x (.ok (.null, false)) (.ok (.null, false))
  | accepted {v : Value} : x.findings false v = .none → Staged x (.ok (v, true)) (.ok (v, true))
  | refused {v : Value} {report : Schema.Report} : (x.findings false v).violations ≠ [] →
    x.validate v = .ok (some report) →
    Staged x (.ok (v, true))
      (.error (.fault (.output report.message (Schema.pathText report.path))))
  /-- What the validator itself raises, in finding violations or in choosing one, is raised. -/
  | raised {v : Value} {c : Crash} : x.validate v = .error c →
    Staged x (.ok (v, true)) (.error (.crash c))

variable {b b' : Binder} {x : Schema.Validator}

/-- A validator decides as one does that ignores no keyword, if the one it ignores has no rule. -/
theorem Staged.plain {o o' : Outcome Extraction} (h : Staged x o o') (hx : x.policy.Harmless) :
    Staged x.plain o o' := by
  cases h with
  | failed hf => exact .failed hf
  | unbound => exact .unbound
  | accepted hv => exact .accepted (by rwa [Schema.Validator.findings_plain hx])
  | refused hv hreport =>
    exact .refused (by rwa [Schema.Validator.findings_plain hx])
      (by rwa [Schema.Validator.validate_plain hx])
  | raised hc => exact .raised (by rwa [Schema.Validator.validate_plain hx])

theorem conclude_unbound (b : Binder) (v : Value) : b.conclude (v, false) = .ok (.null, false) := rfl

theorem conclude_unvalidated (hb : b.validator = none) (v : Value) :
    b.conclude (v, true) = .ok (v, true) := by
  simp [conclude, hb, pure, Except.pure]

theorem conclude_validated (hb : b.validator = some x) (v : Value) :
    b.conclude (v, true) = match x.validate v with
      | .error c => .error (.crash c)
      | .ok none => .ok (v, true)
      | .ok (some report) =>
        .error (.fault (.output report.message (Schema.pathText report.path))) := by
  rcases hv : x.validate v with c | _ | report <;>
    simp [conclude, validate, hb, hv, pure, Except.pure, Except.mapError, throw, throwThe,
      MonadExceptOf.throw]

/-- Of two binders with the same tree, the one that validates ends as the validator decides. -/
theorem bind_staged (hroot : b'.root = b.root) (hregistry : b'.registry = b.registry)
    (hb : b.validator = none) (hb' : b'.validator = some x) (raw : Text.Bytes)
    (token : Option CancelToken) :
    Staged x (b.bind raw token).1 (b'.bind raw token).1 ∧
      (b'.bind raw token).2 = (b.bind raw token).2 := by
  let run := Tree.bind token b.root (.ofCache (.ofDocument raw b.registry.representations))
  have hbind : b.bind raw token = (run.1 >>= b.conclude, run.2) := rfl
  have hbind' : b'.bind raw token = (run.1 >>= b'.conclude, run.2) := by
    simp only [bind, hroot, hregistry]
    rfl
  rw [hbind, hbind']
  refine ⟨?_, rfl⟩
  rcases hrun : run.1 with f | ⟨v, _ | _⟩
  case error =>
    have hends := Tree.bind_ends token b.root (Cache.over_ofDocument raw _) hrun
    exact .failed hends.ne_output
  case ok.false =>
    rw [Except.ok_bind, Except.ok_bind, conclude_unbound, conclude_unbound]
    exact .unbound
  case ok.true =>
    rw [Except.ok_bind, Except.ok_bind, conclude_unvalidated hb, conclude_validated hb']
    rcases hv : x.validate v with c | _ | report
    · exact .raised hv
    · exact .accepted (Schema.Findings.report_eq_none.mp hv)
    · exact .refused (Schema.Findings.violations_of_report hv).2 hv

/-- Whether results are validated makes no difference to compiling: a schema fails alike, or it gives
binders with the same tree. A validating binder binds a document as the other one does, and then only
refuses a value in which a validator that ignores no keyword finds violations, as long as the ignored
keyword is none of the dialect. -/
theorem compile_staged (source : SchemaSource) (s : Settings) (r : Registry)
    (hkeyword : ∀ es d, checked source s = .ok (es, d) →
      (Schema.Keyword.rules d).lookup s.keyword = none) :
    (∃ f, compile source { s with validateOutput := false } r = .error f ∧
      compile source { s with validateOutput := true } r = .error f) ∨
    ∃ b b' es d x, compile source { s with validateOutput := false } r = .ok b ∧
      compile source { s with validateOutput := true } r = .ok b' ∧ b'.root = b.root ∧
      checked source s = .ok (es, d) ∧
      Schema.Validator.ofSchema d none false (.object es) = .ok x ∧
      ∀ raw token, Staged x (b.bind raw token).1 (b'.bind raw token).1 ∧
        (b'.bind raw token).2 = (b.bind raw token).2 := by
  have hsame : ∀ validates,
      checked source { s with validateOutput := validates } = checked source s := fun _ => rfl
  rcases hchecked : checked source s with f | ⟨es, d⟩
  · exact .inl ⟨f, compile_of_unchecked ((hsame false).trans hchecked),
      compile_of_unchecked ((hsame true).trans hchecked)⟩
  · obtain ⟨y, -, hcompile⟩ := compile_of_checked (r := r) ((hsame false).trans hchecked)
    obtain ⟨x, hx, hcompile'⟩ := compile_of_checked (r := r) ((hsame true).trans hchecked)
    rw [Tree.compile_validateOutput] at hcompile hcompile'
    rcases hroot : Tree.compile (.object es) r s with f | root <;>
      rw [hroot] at hcompile hcompile'
    · exact .inl ⟨f, hcompile, hcompile'⟩
    · obtain ⟨hplain, hharmless⟩ :=
        Schema.Validator.plain_of_ofSchema hx (hkeyword es d hchecked)
      refine .inr ⟨_, _, es, d, x.plain, hcompile, hcompile', rfl, rfl, hplain, fun raw token => ?_⟩
      let b : Binder := ⟨root, r, { s with validateOutput := false }, none⟩
      let b' : Binder := ⟨root, r, { s with validateOutput := true }, some x⟩
      have hroot : b'.root = b.root := rfl
      obtain ⟨hbind, hsession⟩ := bind_staged hroot rfl rfl rfl raw token
      exact ⟨hbind.plain hharmless, hsession⟩

/-- Whether a binder that validates refuses what it binds from a document. -/
def refuses (source : SchemaSource) (s : Settings) (raw : Text.Bytes) : Bool :=
  match compile source { s with validateOutput := true } .default with
  | .ok b =>
    match (b.bind raw none).1 with
    | .error (.fault (.output _ _)) => true
    | _ => false
  | .error _ => false

/-- A number is bound where the schema asks for a text. -/
theorem compile_staged_refused :
    let source := SchemaSource.mapping [("type", .text "string"), ("bind", .text "pointer:/a")]
    let raw := Text.utf8 "\x7b\"a\": 1\x7d"
    ∃ b b' x, compile source { validateOutput := false } .default = .ok b ∧
      compile source {} .default = .ok b' ∧ b'.root = b.root ∧
      Staged x (b.bind raw none).1 (b'.bind raw none).1 ∧
      ∃ message path, (b'.bind raw none).1 = .error (.fault (.output message path)) := by
  intro source raw
  have hrefuses : refuses source {} raw = true := by decide +kernel
  unfold refuses at hrefuses
  rcases compile_staged source {} .default (fun _ d _ => by cases d <;> rfl) with
    ⟨f, -, hf⟩ | ⟨b, b', -, -, x, hb, hb', hroot, -, -, hbind⟩
  · rw [hf] at hrefuses
    cases hrefuses
  · simp only [hb'] at hrefuses
    refine ⟨b, b', x, hb, hb', hroot, (hbind raw none).1, ?_⟩
    split at hrefuses
    · next message path h => exact ⟨message, path, h⟩
    · cases hrefuses

end Binder

end Reshape
