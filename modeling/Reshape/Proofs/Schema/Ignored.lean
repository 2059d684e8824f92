import Reshape.Proofs.Outcome
import Reshape.Proofs.Schema.Blind
import Reshape.Schema.Validator

/-! Ignored keywords. A keyword that the dialect has no rule for may as well be checked: leaving it
out changes no finding, in the schema itself or in any schema that is applied inside of it. -/

namespace Reshape.Schema

/-! ### Rules -/

namespace Keyword

/-- What a rule finds does not depend on a harmless ignored keyword. -/
def Rule.Blind (rule : Rule) : Prop := ∀ c : Check, c.Blind → rule c.plain = rule c

def Rules.Blind (rules : Rules) : Prop := ∀ x ∈ rules, Rule.Blind x.2

namespace Rules.Blind

theorem nil : Rules.Blind [] := by
  simp [Rules.Blind]

theorem cons {key : String} {rule : Rule} {l : Rules} (h : Rule.Blind rule) (hl : Rules.Blind l) :
    Rules.Blind ((key, rule) :: l) :=
  List.forall_mem_cons.mpr ⟨h, hl⟩

theorem append {l m : Rules} (hl : Rules.Blind l) (hm : Rules.Blind m) : Rules.Blind (l ++ m) :=
  List.forall_mem_append.mpr ⟨hl, hm⟩

end Rules.Blind

-- Where a rule applies no schema, both sides are the same by definition.

theorem common_blind : Rules.Blind common := by
  refine .cons (fun _ => Check.ref_plain) ?_
  iterate 8 refine .cons (fun _ _ => rfl) ?_
  refine .cons (fun _ => Check.patternProperties_plain) ?_
  exact .cons (fun _ => Check.additionalProperties_plain) .nil

theorem fourth_blind : Rules.Blind fourth := by
  iterate 2 refine .cons (fun _ _ => rfl) ?_
  refine .cons (fun _ => Check.properties_plain) ?_
  iterate 3 refine .cons (fun _ _ => rfl) ?_
  refine .cons (fun _ => Check.allOf_plain) ?_
  refine .cons (fun _ => Check.anyOf_plain) ?_
  refine .cons (fun _ => Check.oneOf_plain) ?_
  exact .cons (fun _ => Check.not_plain) .nil

theorem sixth_blind : Rules.Blind sixth := by
  iterate 5 refine .cons (fun _ _ => rfl) ?_
  exact .cons (fun _ => Check.propertyNames_plain) .nil

theorem oldestBounds_blind : Rules.Blind oldestBounds := by
  iterate 2 refine .cons (fun _ _ => rfl) ?_
  exact .nil

theorem conditional_blind : Rules.Blind conditional :=
  .cons (fun _ => Check.conditional_plain) .nil

theorem olderItems_blind : Rules.Blind olderItems :=
  .cons (fun _ => Check.olderItems_plain) (.cons (fun _ => Check.additionalItems_plain) .nil)

theorem oldestItems_blind : Rules.Blind oldestItems :=
  .cons (fun _ => Check.oldestItems_plain) (.cons (fun _ => Check.additionalItems_plain) .nil)

theorem third_blind : Rules.Blind third := by
  refine .cons (fun _ => Check.typeOrSchema_plain) ?_
  refine .cons (fun _ => Check.disallow_plain) ?_
  refine .cons (fun _ => Check.extending_plain) ?_
  refine .cons (fun _ _ => rfl) ?_
  refine .cons (fun _ => Check.oldestProperties_plain) ?_
  exact .cons (fun _ => Check.oldestDependencies_plain) .nil

theorem dependencies_blind : Rules.Blind dependencies :=
  .cons (fun _ => Check.dependencies_plain) .nil

theorem older_blind : Rules.Blind older :=
  .append (.cons (fun _ => Check.olderContains_plain) olderItems_blind) dependencies_blind

theorem dated_blind : Rules.Blind dated := by
  refine .cons (fun _ => Check.contains_plain) ?_
  refine .cons (fun _ _ => rfl) ?_
  refine .cons (fun _ => Check.dependentSchemas_plain) ?_
  refine .cons (fun _ => Check.unevaluatedItems_plain) ?_
  exact .cons (fun _ => Check.unevaluatedProperties_plain) .nil

theorem rules_blind (d : Dialect) : Rules.Blind (rules d) := by
  cases d with
  | draft3 =>
    exact .append (.append (.append common_blind oldestBounds_blind) oldestItems_blind) third_blind
  | draft4 =>
    exact .append (.append (.append (.append common_blind fourth_blind) oldestBounds_blind)
      oldestItems_blind) dependencies_blind
  | draft6 => exact .append (.append (.append common_blind fourth_blind) sixth_blind) older_blind
  | draft7 =>
    exact .append (.append (.append (.append common_blind fourth_blind) sixth_blind) older_blind)
      conditional_blind
  | draft2019 =>
    have hlast : Rules.Blind [("$recursiveRef", Check.recursiveRef)] :=
      .cons (fun _ => Check.recursiveRef_plain) .nil
    exact .append (.append (.append (.append (.append (.append common_blind fourth_blind)
      sixth_blind) conditional_blind) dated_blind) olderItems_blind) hlast
  | draft2020 =>
    have hlast : Rules.Blind [("$dynamicRef", Check.ref), ("prefixItems", Check.prefixItems),
        ("items", Check.laterItems)] :=
      .cons (fun _ => Check.ref_plain)
        (.cons (fun _ => Check.prefixItems_plain) (.cons (fun _ => Check.laterItems_plain) .nil))
    exact .append (.append (.append (.append (.append common_blind fourth_blind) sixth_blind)
      conditional_blind) dated_blind) hlast

theorem rule_blind {d : Dialect} {key : String} {rule : Rule}
    (h : (rules d).lookup key = some rule) : Rule.Blind rule := by
  obtain ⟨before, rest, hl, -⟩ := List.lookup_eq_some_iff.mp h
  exact rules_blind d (key, rule) (hl ▸ List.mem_append_cons_self)

end Keyword

/-! ### Findings -/

/-- The rule of a harmless keyword would find nothing, for there is none. -/
theorem checkKeyword_plain {c : Check} (h : c.Blind) : checkKeyword c.plain = checkKeyword c := by
  rw [show checkKeyword c.plain = ((Keyword.rules c.policy.dialect).lookup c.keyword).elim
    (.ok .none) (fun rule => rule c.plain) from rfl, checkKeyword]
  split_ifs with hk
  · rw [h.harmless _ hk]
    rfl
  · cases hr : (Keyword.rules c.policy.dialect).lookup c.keyword with
    | none => rfl
    | some rule => exact Keyword.rule_blind hr c h

/-- Leaving out a keyword that has no rule changes no finding. -/
theorem apply_plain (depth : Nat) (brief : Bool) (around : Dialect) {p : Policy} (hp : p.Harmless)
    (scope : Scope) (schema v : Value) :
    apply depth brief around p.plain scope schema v = apply depth brief around p scope schema v := by
  induction depth generalizing brief around p scope schema v with
  | zero => rfl
  | succ depth ih =>
    have hblind : Applier.Blind ⟨p, apply depth, depth⟩ :=
      ⟨hp, fun brief around q scope schema v hq => ih brief around hq scope schema v⟩
    unfold apply
    rcases applicable around schema with c | es
    · rfl
    · rcases entriesOf schema with c | entries
      · rfl
      · refine congrArg (fun f => Findings.ofResult (.ok (Findings.forEach brief f es))) ?_
        funext ⟨k, x⟩
        cases k with
        | text keyword =>
          exact checkKeyword_plain (c := ⟨_, brief, scope, entries, keyword, x, v⟩) hblind
        | _ => rfl

/-! ### Validators -/

namespace Validator

/-- The validator that checks every keyword. -/
def plain (x : Validator) : Validator := { x with policy := x.policy.plain }

theorem findings_plain {x : Validator} (h : x.policy.Harmless) : x.plain.findings = x.findings := by
  funext brief v
  exact apply_plain depthLimit brief x.policy.dialect h x.scope x.schema v

theorem validate_plain {x : Validator} (h : x.policy.Harmless) : x.plain.validate = x.validate := by
  unfold validate
  rw [findings_plain h]

theorem ofSchema_plain (d : Dialect) (ignored : Option String) (checksPatterns : Bool)
    (schema : Value) : ofSchema d none checksPatterns schema =
      (ofSchema d ignored checksPatterns schema).map plain := by
  simp only [ofSchema]
  cases Library.rootUri ⟨d, schema⟩ <;> rfl

theorem ofSchema_eq_ok {d : Dialect} {ignored : Option String} {checksPatterns : Bool}
    {schema : Value} {x : Validator} : ofSchema d ignored checksPatterns schema = .ok x ↔
      ∃ uri, Library.rootUri ⟨d, schema⟩ = .ok uri ∧
        x = ⟨schema, ⟨d, ignored, checksPatterns, .ofResource uri ⟨d, schema⟩⟩, ⟨uri, false, []⟩⟩ := by
  unfold ofSchema
  rw [Except.bind_eq_ok]
  simp only [pure, Except.pure, Except.ok.injEq, eq_comm]

/-- Of a schema that has a validator, there is one that ignores no keyword. They agree if the ignored
keyword has no rule. -/
theorem plain_of_ofSchema {d : Dialect} {keyword : String} {checksPatterns : Bool} {schema : Value}
    {x : Validator} (h : ofSchema d keyword checksPatterns schema = .ok x)
    (hkeyword : (Keyword.rules d).lookup keyword = none) :
    ofSchema d none checksPatterns schema = .ok x.plain ∧ x.policy.Harmless := by
  constructor
  · rw [ofSchema_plain d keyword, h]
    rfl
  · obtain ⟨uri, -, rfl⟩ := ofSchema_eq_ok.mp h
    intro k hk
    obtain rfl := Option.some.inj hk
    exact hkeyword

end Validator

end Reshape.Schema
