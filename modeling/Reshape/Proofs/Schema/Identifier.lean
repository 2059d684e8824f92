import Reshape.Proofs.Entries
import Reshape.Proofs.Schema.Findings
import Reshape.Proofs.Schema.Ignored
import Reshape.Proofs.Schema.Library

/-! Identifiers of schemas that have been checked. Each dialect asks of its schemas that the identifier
be a text, so a validator can be made of whatever is a schema of a dialect. -/

namespace Reshape.Schema

/-! ### Nothing found -/

/-- If a schema finds nothing, nor does any of its keywords. -/
theorem rule_of_apply {depth : Nat} {brief : Bool} {around : Dialect} {p : Policy} {scope : Scope}
    {es fs : List (Key × Value)} {v : Value}
    (h : apply depth brief around p scope (.object es) v = .none) (hp : p.ignored = none)
    (hfs : applicable around (.object es) = .ok fs) {k : String} {x : Value}
    (hx : Entries.find? (.text k) fs = some x) {rule : Keyword.Rule}
    (hrule : (Keyword.rules p.dialect).lookup k = some rule) :
    ∃ n, rule ⟨⟨p, apply n, n⟩, brief, scope, es, k, x, v⟩ = .ok .none := by
  cases depth with
  | zero => cases h
  | succ n =>
    refine ⟨n, ?_⟩
    unfold apply at h
    rw [hfs] at h
    have hall := Findings.forEach_eq_none.mp (Except.ok.inj (Findings.ofResult_eq_none.mp h))
    have hk := hall (.text k, x) (Entries.mem_of_find? hx)
    simpa [checkKeyword, hp, hrule] using hk

namespace Applier

variable {a : Applier} {brief : Bool} {s : Scope} {es : List (Key × Value)} {v : Value}

theorem visit_of_applyAt (h : a.applyAt brief s (.object es) v = .none) :
    ∃ p, a.policy.within (.object es) = .ok p ∧
      a.visit brief a.policy.dialect p s (.object es) v = .none := by
  obtain ⟨p, hp, h⟩ := Except.bind_eq_ok.mp (Findings.ofResult_eq_none.mp h)
  exact ⟨p, hp, Except.ok.inj h⟩

theorem applyAt_of_applyInside (h : a.applyInside brief s (.object es) v = .none) :
    ∃ t, s.enter ⟨a.policy.dialect, .object es⟩ = .ok t ∧
      a.applyAt brief t (.object es) v = .none := by
  obtain ⟨t, ht, h⟩ := Except.bind_eq_ok.mp (Findings.ofResult_eq_none.mp h)
  exact ⟨t, ht, Except.ok.inj h⟩

end Applier

namespace Check

variable {c : Check} {es ps : List (Key × Value)} {k : Key} {s v : Value}

theorem applyInside_of_part {step : Step} {fs : List (Key × Value)}
    (h : c.part step (.object fs) v = .ok .none) :
    c.applyInside c.brief c.scope (.object fs) v = .none :=
  Findings.under_eq_none.mp (Except.ok.inj h)

theorem part_of_properties (h : c.properties = .ok .none) (hc : c.subject = .object es)
    (hv : c.value = .object ps) (hs : Entries.find? k ps = some s)
    (hk : Entries.find? k es = some v) : c.part (.key k) s v = .ok .none := by
  unfold properties onMembers at h
  rw [hc, hv] at h
  have hall := Findings.forEach_eq_none.mp (Except.ok.inj h) (k, s) (Entries.mem_of_find? hs)
  simpa only [hk] using hall

theorem part_of_oldestProperties (h : c.oldestProperties = .ok .none) (hc : c.subject = .object es)
    (hv : c.value = .object ps) (hs : Entries.find? k ps = some s)
    (hk : Entries.find? k es = some v) : c.part (.key k) s v = .ok .none := by
  unfold oldestProperties onMembers at h
  rw [hc, hv] at h
  have hall := Findings.forEach_eq_none.mp (Except.ok.inj h) (k, s) (Entries.mem_of_find? hs)
  simpa only [hk] using hall

theorem here_of_allOf (h : c.allOf = .ok .none) {schemas : List Value}
    (hv : c.value = .array schemas) (hs : s ∈ schemas) : c.here s = .ok .none := by
  unfold allOf at h
  rw [hv] at h
  exact Findings.forEach_eq_none.mp (Except.ok.inj h) s hs

theorem applyAt_of_ref (h : c.ref = .ok .none) {r : String} (hv : c.value = .text r)
    {scope : Scope} (hr : lookup c.policy.resources c.scope r = .ok (s, scope)) :
    c.applyAt c.brief scope s c.subject = .none := by
  unfold ref at h
  rw [hv] at h
  simp only [hr] at h
  exact Except.ok.inj h

theorem hasTypeOf_string (d : Dialect) (v : Value) :
    hasTypeOf d v (.text "string") = .ok (v.kind == .text) := rfl

theorem text_of_kind {v : Value} (h : (v.kind == .text) = true) : ∃ t, v = .text t := by
  cases v with
  | text t => exact ⟨t, rfl⟩
  | number n => cases n <;> cases h
  | special x => cases x <;> cases h
  | _ => cases h

theorem text_of_type (h : c.type = .ok .none) (hv : c.value = .text "string") :
    ∃ t, c.subject = .text t := by
  unfold type alternatives at h
  rw [hv] at h
  cases hkind : c.subject.kind == .text with
  | true => exact text_of_kind hkind
  | false =>
    simp [hasTypeOf_string, hkind, List.anyM, failUnless, failInstance, fail, failBecause,
      Findings.single, Findings.none] at h

theorem text_of_typeOrSchema (h : c.typeOrSchema = .ok .none) (hv : c.value = .text "string") :
    ∃ t, c.subject = .text t := by
  unfold typeOrSchema alternatives at h
  rw [hv] at h
  cases hkind : c.subject.kind == .text with
  | true => exact text_of_kind hkind
  | false =>
    have hany : isSame (.text "string") (.text "any") = false := rfl
    simp [hasTypeOf_string, hkind, firstType, hany, failBecause,
      Findings.single, Findings.none] at h

end Check

/-! ### Rules -/

theorem rule_ref (d : Dialect) : (Keyword.rules d).lookup "$ref" = some Check.ref := by
  cases d <;> rfl

theorem rule_allOf {d : Dialect} (h : d.isDated = true) :
    (Keyword.rules d).lookup "allOf" = some Check.allOf := by
  cases d <;> first | rfl | cases h

theorem rule_type (d : Dialect) : (Keyword.rules d).lookup "type" = some Check.type ∨
    (Keyword.rules d).lookup "type" = some Check.typeOrSchema := by
  cases d <;> first | exact .inl rfl | exact .inr rfl

theorem rule_properties (d : Dialect) :
    (Keyword.rules d).lookup "properties" = some Check.properties ∨
      (Keyword.rules d).lookup "properties" = some Check.oldestProperties := by
  cases d <;> first | exact .inl rfl | exact .inr rfl

/-! ### Schemas that ask for texts -/

/-- Whether a schema is an object that is read in the dialect of the schema around it. -/
def keepsDialect (d : Dialect) (schema : Value) : Bool :=
  match schema, declaredDialect? schema with
  | .object _, .ok declared => declared.getD d = d
  | _, _ => false

theorem within_of_keepsDialect {p q : Policy} (hp : p.ignored = none) {schema : Value}
    (h : keepsDialect p.dialect schema = true) (hq : p.within schema = .ok q) : q = p := by
  unfold keepsDialect at h
  split at h
  · next declared hd =>
    obtain ⟨o, ho, hq⟩ := Except.bind_eq_ok.mp hq
    obtain rfl := Except.ok.inj (hd.symm.trans ho)
    cases declared with
    | none => exact (Except.ok.inj hq).symm
    | some d =>
      obtain rfl : d = p.dialect := by simpa using h
      obtain rfl := Except.ok.inj hq
      rw [← hp]
  · cases h

/-- Whether something is asked of a schema that is applied inside of another one. -/
def asksInside (d : Dialect) (s : Scope) (ask : Scope → Value → Bool) (schema : Value) : Bool :=
  keepsDialect d schema && match s.enter ⟨d, schema⟩ with
    | .ok t => ask t schema
    | .error _ => false

/-- Whether something is asked of what a reference leads to. -/
def asksBehind (d : Dialect) (rs : Resources) (s : Scope) (ask : Scope → Value → Bool) :
    Option Value → Bool
  | some (.text r) =>
    match lookup rs s r with
    | .ok (schema, t) => keepsDialect d schema && ask t schema
    | .error _ => false
  | _ => false

/-- Whether a schema asks for a text, by itself or behind references. -/
def asksText (d : Dialect) (rs : Resources) : Nat → Scope → Value → Bool
  | 0, _, _ => false
  | n + 1, s, schema =>
    match applicable d schema with
    | .ok fs =>
      match Entries.find? "type" fs with
      | some (.text t) => t == "string"
      | _ => asksBehind d rs s (asksText d rs n) (Entries.find? "$ref" fs)
    | .error _ => false

/-- Whether a schema asks for an identifier that is a text: by its properties, by the first of its
`allOf`, or behind references. -/
def asksName (d : Dialect) (rs : Resources) : Nat → Scope → Value → Bool
  | 0, _, _ => false
  | n + 1, s, schema =>
    match applicable d schema with
    | .ok fs =>
      match Entries.find? "properties" fs, Entries.find? "allOf" fs with
      | _, some (.array (first :: _)) => d.isDated && asksInside d s (asksName d rs n) first
      | some (.object ps), _ =>
        (Entries.find? (.text (Resource.idKey d)) ps).any (asksInside d s (asksText d rs n))
      | _, _ => asksBehind d rs s (asksName d rs n) (Entries.find? "$ref" fs)
    | .error _ => false

theorem apply_of_applyAt {p : Policy} {depth : Nat} (hp : p.ignored = none) {brief : Bool}
    {s : Scope} {schema v : Value} (hkeeps : keepsDialect p.dialect schema = true)
    (h : Applier.applyAt ⟨p, apply depth, depth⟩ brief s schema v = .none) :
    apply depth brief p.dialect p s schema v = .none := by
  cases schema with
  | object es =>
    obtain ⟨q, hq, h⟩ := Applier.visit_of_applyAt h
    obtain rfl := within_of_keepsDialect hp hkeeps hq
    exact h
  | _ => cases hkeeps

/-- What is asked of instances by the schema that applies inside, where its scope is entered. -/
theorem apply_of_asksInside {p : Policy} {depth : Nat} (hp : p.ignored = none) {brief : Bool}
    {s : Scope} {ask : Scope → Value → Bool} {schema v : Value}
    (hask : asksInside p.dialect s ask schema = true)
    (h : Applier.applyInside ⟨p, apply depth, depth⟩ brief s schema v = .none) :
    ∃ t, ask t schema = true ∧ apply depth brief p.dialect p t schema v = .none := by
  rw [asksInside, Bool.and_eq_true] at hask
  obtain ⟨hkeeps, hask⟩ := hask
  cases schema with
  | object es =>
    obtain ⟨t, ht, h⟩ := Applier.applyAt_of_applyInside h
    rw [ht] at hask
    exact ⟨t, hask, apply_of_applyAt hp hkeeps h⟩
  | _ => cases hkeeps

theorem apply_of_asksBehind {p : Policy} {rs : Resources} (hrs : rs.Within p.resources) {depth : Nat}
    (hp : p.ignored = none) {brief : Bool} {s : Scope} {ask : Scope → Value → Bool}
    {es fs : List (Key × Value)} {v : Value} (hfs : applicable p.dialect (.object es) = .ok fs)
    (hask : asksBehind p.dialect rs s ask (Entries.find? "$ref" fs) = true)
    (h : apply depth brief p.dialect p s (.object es) v = .none) :
    ∃ n t schema, ask t schema = true ∧ apply n brief p.dialect p t schema v = .none := by
  unfold asksBehind at hask
  split at hask
  · next r hr =>
    obtain ⟨n, h⟩ := rule_of_apply h hp hfs hr (rule_ref p.dialect)
    split at hask
    · next schema t hlookup =>
      rw [Bool.and_eq_true] at hask
      have hat := Check.applyAt_of_ref h rfl (hrs _ _ _ hlookup)
      exact ⟨n, t, schema, hask.2, apply_of_applyAt hp hask.1 hat⟩
    · cases hask
  · cases hask

theorem object_of_applicable {d : Dialect} {schema : Value} {fs : List (Key × Value)}
    (h : applicable d schema = .ok fs) : ∃ es, schema = .object es := by
  cases schema with
  | object es => exact ⟨es, rfl⟩
  | _ => cases h

/-- Where a text is asked for, nothing else passes. -/
theorem text_of_asksText {p : Policy} {rs : Resources} (hrs : rs.Within p.resources)
    (hp : p.ignored = none) {n depth : Nat} {brief : Bool} {s : Scope} {schema v : Value}
    (hask : asksText p.dialect rs n s schema = true)
    (h : apply depth brief p.dialect p s schema v = .none) : ∃ t, v = .text t := by
  induction n generalizing depth s schema with
  | zero => cases hask
  | succ n ih =>
    unfold asksText at hask
    split at hask
    · next fs hfs =>
      obtain ⟨es, rfl⟩ := object_of_applicable hfs
      split at hask
      · next t ht =>
        obtain rfl : t = "string" := by simpa using hask
        rcases rule_type p.dialect with hrule | hrule <;>
          obtain ⟨m, h⟩ := rule_of_apply h hp hfs ht hrule
        · exact Check.text_of_type h rfl
        · exact Check.text_of_typeOrSchema h rfl
      · obtain ⟨m, t, schema, hask, h⟩ := apply_of_asksBehind hrs hp hfs hask h
        exact ih hask h
    · cases hask

/-- Where a member is asked to be an identifier that is a text, no other identifier passes. -/
theorem text_of_asksProperty {p : Policy} {rs : Resources} (hrs : rs.Within p.resources)
    (hp : p.ignored = none) {n depth : Nat} {brief : Bool} {s : Scope} {v : Value}
    {es fs gs ps : List (Key × Value)} (hfs : applicable p.dialect (.object gs) = .ok fs)
    (hps : Entries.find? "properties" fs = some (.object ps))
    (hask : (Entries.find? (.text (Resource.idKey p.dialect)) ps).any
      (asksInside p.dialect s (asksText p.dialect rs n)) = true)
    (h : apply depth brief p.dialect p s (.object gs) (.object es) = .none)
    (hv : Entries.find? (.text (Resource.idKey p.dialect)) es = some v) : ∃ t, v = .text t := by
  obtain ⟨t, ht, hask⟩ := (Option.any_eq_true _ _).mp hask
  have hpart : ∃ m, Check.part
      ⟨⟨p, apply m, m⟩, brief, s, gs, "properties", .object ps, .object es⟩
      (.key (.text (Resource.idKey p.dialect))) t v = .ok .none := by
    rcases rule_properties p.dialect with hrule | hrule <;>
      obtain ⟨m, h⟩ := rule_of_apply h hp hfs hps hrule
    · exact ⟨m, Check.part_of_properties h rfl rfl ht hv⟩
    · exact ⟨m, Check.part_of_oldestProperties h rfl rfl ht hv⟩
  obtain ⟨m, hpart⟩ := hpart
  cases t with
  | object ts =>
    obtain ⟨s', hask, h⟩ := apply_of_asksInside hp hask (Check.applyInside_of_part hpart)
    exact text_of_asksText hrs hp hask h
  | _ => cases hask

/-- Where an identifier is asked for that is a text, no other identifier passes. -/
theorem text_of_asksName {p : Policy} {rs : Resources} (hrs : rs.Within p.resources)
    (hp : p.ignored = none) {n depth : Nat} {brief : Bool} {s : Scope} {schema v : Value}
    {es : List (Key × Value)} (hask : asksName p.dialect rs n s schema = true)
    (h : apply depth brief p.dialect p s schema (.object es) = .none)
    (hv : Entries.find? (.text (Resource.idKey p.dialect)) es = some v) : ∃ t, v = .text t := by
  induction n generalizing depth s schema with
  | zero => cases hask
  | succ n ih =>
    unfold asksName at hask
    split at hask
    · next fs hfs =>
      obtain ⟨gs, rfl⟩ := object_of_applicable hfs
      split at hask
      · next first rest hall =>
        rw [Bool.and_eq_true] at hask
        obtain ⟨m, h⟩ := rule_of_apply h hp hfs hall (rule_allOf hask.1)
        have hhere := Check.here_of_allOf h rfl List.mem_cons_self
        obtain ⟨t, hask, h⟩ := apply_of_asksInside hp hask.2 (Except.ok.inj hhere)
        exact ih hask h
      · next ps hps _ => exact text_of_asksProperty hrs hp hfs hps hask h hv
      · obtain ⟨m, t, schema, hask, h⟩ := apply_of_asksBehind hrs hp hfs hask h
        exact ih hask h
    · cases hask

/-! ### The schemas of schemas -/

/-- The resources that say what an identifier is in a dialect, and no more. -/
def coreResources (d : Dialect) : Resources := ⟨⟨Library.cores d, []⟩, .error .missingKey⟩

theorem rootUri_document (d : Dialect) :
    Library.rootUri ⟨d, Meta.document d⟩ = .ok d.uri := by
  cases d <;> decide +kernel

/-- The schemas of a dialect are another document than the one that says what an identifier is. -/
theorem lookup_cores_uri (d : Dialect) : ((Library.cores d).lookup d.uri).isNone = true := by
  cases d <;> decide +kernel

theorem coreResources_within (d : Dialect) :
    (coreResources d).Within (.ofResource d.uri ⟨d, Meta.document d⟩) := by
  refine Resources.within_of_known rfl rfl fun uri r h => ?_
  have hne : (uri == d.uri) = false := by
    rw [beq_eq_false_iff_ne]
    rintro rfl
    have hsome : (Library.cores d).lookup d.uri = some r := h
    have hnone := lookup_cores_uri d
    rw [hsome] at hnone
    cases hnone
  have hstandard := Library.resource?_of_cores h
  simpa [Resources.ofResource, Library.add, Library.resource?, List.lookup_cons, hne] using hstandard

/-- The schemas of every dialect ask for an identifier that is a text. -/
theorem asksName_document (d : Dialect) :
    asksName d (coreResources d) 5 ⟨d.uri, false, []⟩ (Meta.document d) = true := by
  cases d <;> decide +kernel

/-- The identifier of what is a schema of its dialect is a text. -/
theorem text_of_isSchema {d : Dialect} {es : List (Key × Value)}
    (h : isSchema d (.object es) = .ok true) {v : Value}
    (hv : Entries.find? (.text (Resource.idKey d)) es = some v) : ∃ t, v = .text t := by
  obtain ⟨x, hx, hclean⟩ := Except.bind_eq_ok.mp h
  obtain ⟨uri, huri, rfl⟩ := Validator.ofSchema_eq_ok.mp hx
  obtain rfl := Except.ok.inj ((rootUri_document d).symm.trans huri)
  exact text_of_asksName (coreResources_within d) rfl (asksName_document d)
    (Findings.isClean_eq_true.mp hclean) hv

/-- A validator can be made of whatever is a schema of its dialect. -/
theorem ofSchema_of_isSchema {d : Dialect} {es : List (Key × Value)}
    (h : isSchema d (.object es) = .ok true) (ignored : Option String) (checksPatterns : Bool) :
    ∃ x, Validator.ofSchema d ignored checksPatterns (.object es) = .ok x := by
  have hgiven : ∃ id, Resource.givenIdentifier? d es = .ok id := by
    unfold Resource.givenIdentifier?
    cases hv : Entries.find? (.text (Resource.idKey d)) es with
    | none => exact ⟨_, rfl⟩
    | some v =>
      obtain ⟨t, rfl⟩ := text_of_isSchema h hv
      exact ⟨_, rfl⟩
  obtain ⟨id, hid⟩ := hgiven
  have hidentifier : ∃ i, (⟨d, .object es⟩ : Resource).identifier? = .ok i := by
    unfold Resource.identifier?
    simp only [mentions, entriesOf, Except.ok_bind, hid]
    split_ifs <;> exact ⟨_, rfl⟩
  obtain ⟨i, hi⟩ := hidentifier
  refine ⟨_, Validator.ofSchema_eq_ok.mpr ⟨i.getD "", ?_, rfl⟩⟩
  rw [Library.rootUri, hi]
  rfl

end Reshape.Schema
