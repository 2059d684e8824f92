import Reshape.Schema.Keyword

/-! Rules that are blind to an ignored keyword. Of a policy, keywords read the dialect and the
resources; the keyword that it ignores only counts where further schemas are applied. As long as it
has no rule there, a check finds the same without it. -/

namespace Reshape.Schema

/-! ### Policies -/

namespace Policy

/-- The same policy, but that every keyword is checked. -/
def plain (p : Policy) : Policy := { p with ignored := none }

/-- The dialect has no rule for the keyword that is ignored. -/
def Harmless (p : Policy) : Prop :=
  ∀ keyword, p.ignored = some keyword → (Keyword.rules p.dialect).lookup keyword = none

theorem within_plain (p : Policy) (schema : Value) :
    p.plain.within schema = (p.within schema).map plain := by
  unfold within
  rcases declaredDialect? schema with c | _ | d <;> rfl

theorem Harmless.within {p q : Policy} (hp : p.Harmless) {schema : Value}
    (h : p.within schema = .ok q) : q.Harmless := by
  unfold Policy.within at h
  rcases hd : declaredDialect? schema with c | _ | d <;> rw [hd] at h <;> cases h
  · exact hp
  · intro keyword hk
    cases hk

end Policy

/-! ### Application -/

namespace Applier

def plain (a : Applier) : Applier := { a with policy := a.policy.plain }

/-- The ignored keyword is harmless, here and wherever schemas are applied. -/
structure Blind (a : Applier) : Prop where
  harmless : a.policy.Harmless
  visit : ∀ brief around (p : Policy) scope schema v, p.Harmless →
    a.visit brief around p.plain scope schema v = a.visit brief around p scope schema v

variable {a : Applier}

theorem Blind.within (h : a.Blind) {schema : Value} {p : Policy}
    (hp : a.policy.within schema = .ok p) : Blind { a with policy := p } :=
  ⟨h.harmless.within hp, h.visit⟩

theorem applyAt_plain (h : a.Blind) : a.plain.applyAt = a.applyAt := by
  funext brief scope schema v
  cases schema with
  | bool b => rfl
  | _ =>
    simp only [applyAt, plain, Policy.within_plain]
    cases hp : a.policy.within _ with
    | error c => rfl
    | ok p => exact congrArg (Findings.ofResult ∘ .ok) (h.visit _ _ p _ _ _ (h.harmless.within hp))

theorem applyInside_plain (h : a.Blind) : a.plain.applyInside = a.applyInside := by
  funext brief scope schema v
  unfold applyInside
  rw [applyAt_plain h]
  rfl

theorem accepts_plain (h : a.Blind) : a.plain.accepts = a.accepts := by
  funext scope schema v
  simp only [accepts, plain, Policy.within_plain]
  cases hp : a.policy.within schema with
  | error c => rfl
  | ok p =>
    cases schema with
    | bool b => rfl
    | _ => exact congrArg Findings.isClean (h.visit _ _ p _ _ _ (h.harmless.within hp))

end Applier

/-! ### Checks -/

namespace Check

def plain (c : Check) : Check := { c with toApplier := c.toApplier.plain }

abbrev Blind (c : Check) : Prop := c.toApplier.Blind

variable {c : Check}

theorem applyAt_plain (h : c.Blind) : c.plain.applyAt = c.applyAt := Applier.applyAt_plain h

theorem applyInside_plain (h : c.Blind) : c.plain.applyInside = c.applyInside :=
  Applier.applyInside_plain h

theorem here_plain (h : c.Blind) : c.plain.here = c.here := by
  unfold here
  rw [applyInside_plain h]
  rfl

theorem part_plain (h : c.Blind) : c.plain.part = c.part := by
  unfold part
  rw [applyInside_plain h]
  rfl

theorem satisfies_plain (h : c.Blind) : c.plain.satisfies = c.satisfies := by
  unfold satisfies
  rw [show c.plain.accepts = c.accepts from Applier.accepts_plain h]
  rfl

theorem itemsFrom_plain (h : c.Blind) : c.plain.itemsFrom = c.itemsFrom := by
  unfold itemsFrom
  rw [part_plain h]
  rfl

theorem itemsByPlace_plain (h : c.Blind) : c.plain.itemsByPlace = c.itemsByPlace := by
  unfold itemsByPlace
  rw [part_plain h]
  rfl

/-! ### Keywords that apply schemas -/

theorem ref_plain (h : c.Blind) : c.plain.ref = c.ref := by
  unfold ref
  rw [applyAt_plain h]
  rfl

theorem recursiveRef_plain (h : c.Blind) : c.plain.recursiveRef = c.recursiveRef := by
  unfold recursiveRef
  rw [applyAt_plain h]
  rfl

theorem allOf_plain (h : c.Blind) : c.plain.allOf = c.allOf := by
  unfold allOf
  rw [here_plain h]
  rfl

theorem firstSatisfied_plain (h : c.Blind) : c.plain.firstSatisfied = c.firstSatisfied := by
  funext schemas
  induction schemas with
  | nil => rfl
  | cons s rest ih =>
    rw [firstSatisfied, applyInside_plain h, ih]
    rfl

theorem anyOf_plain (h : c.Blind) : c.plain.anyOf = c.anyOf := by
  unfold anyOf
  rw [firstSatisfied_plain h]
  rfl

theorem oneOf_plain (h : c.Blind) : c.plain.oneOf = c.oneOf := by
  unfold oneOf
  rw [firstSatisfied_plain h, satisfies_plain h]
  rfl

theorem not_plain (h : c.Blind) : c.plain.not = c.not := by
  unfold Check.not
  rw [satisfies_plain h]
  rfl

theorem conditional_plain (h : c.Blind) : c.plain.conditional = c.conditional := by
  unfold conditional
  rw [satisfies_plain h, here_plain h]
  rfl

theorem properties_plain (h : c.Blind) : c.plain.properties = c.properties := by
  unfold properties
  rw [part_plain h]
  rfl

theorem patternProperties_plain (h : c.Blind) :
    c.plain.patternProperties = c.patternProperties := by
  unfold patternProperties
  rw [part_plain h]
  rfl

theorem additionalProperties_plain (h : c.Blind) :
    c.plain.additionalProperties = c.additionalProperties := by
  unfold additionalProperties
  rw [part_plain h]
  rfl

theorem propertyNames_plain (h : c.Blind) : c.plain.propertyNames = c.propertyNames := by
  unfold propertyNames
  rw [applyInside_plain h]
  rfl

theorem dependentSchemas_plain (h : c.Blind) : c.plain.dependentSchemas = c.dependentSchemas := by
  unfold dependentSchemas
  rw [here_plain h]
  rfl

theorem dependencies_plain (h : c.Blind) : c.plain.dependencies = c.dependencies := by
  unfold dependencies
  rw [here_plain h]
  rfl

theorem oldestItems_plain (h : c.Blind) : c.plain.oldestItems = c.oldestItems := by
  unfold oldestItems
  rw [itemsFrom_plain h, itemsByPlace_plain h]
  rfl

theorem olderItems_plain (h : c.Blind) : c.plain.olderItems = c.olderItems := by
  unfold olderItems
  rw [itemsFrom_plain h, itemsByPlace_plain h]
  rfl

theorem additionalItems_plain (h : c.Blind) : c.plain.additionalItems = c.additionalItems := by
  unfold additionalItems
  rw [itemsFrom_plain h]
  rfl

theorem prefixItems_plain (h : c.Blind) : c.plain.prefixItems = c.prefixItems := by
  unfold prefixItems
  rw [itemsByPlace_plain h]
  rfl

theorem laterItems_plain (h : c.Blind) : c.plain.laterItems = c.laterItems := by
  unfold laterItems
  rw [itemsFrom_plain h]
  rfl

theorem countSatisfying_plain (h : c.Blind) : c.plain.countSatisfying = c.countSatisfying := by
  funext most n items
  induction items generalizing n with
  | nil => rfl
  | cons v rest ih =>
    simp only [countSatisfying, satisfies_plain h, ih]
    rfl

theorem within_plain_bind {α : Type} (schema : Value) (x : Except Crash α) :
    (c.plain.policy.within schema >>= fun _ => x) = (c.policy.within schema >>= fun _ => x) := by
  rw [show c.plain.policy.within schema = _ from c.policy.within_plain schema]
  cases c.policy.within schema <;> rfl

theorem contains_plain (h : c.Blind) : c.plain.contains = c.contains := by
  unfold contains
  rw [countSatisfying_plain h]
  simp only [within_plain_bind]
  rfl

theorem olderContains_plain (h : c.Blind) : c.plain.olderContains = c.olderContains := by
  unfold olderContains
  rw [satisfies_plain h]
  rfl

theorem firstType_plain (h : c.Blind) : c.plain.firstType = c.firstType := by
  funext types
  induction types with
  | nil => rfl
  | cons t rest ih =>
    unfold firstType
    rw [applyInside_plain h, ih]
    rfl

theorem typeOrSchema_plain (h : c.Blind) : c.plain.typeOrSchema = c.typeOrSchema := by
  unfold typeOrSchema
  rw [firstType_plain h]
  rfl

theorem disallow_plain (h : c.Blind) : c.plain.disallow = c.disallow := by
  unfold disallow
  rw [satisfies_plain h]
  rfl

theorem extending_plain (h : c.Blind) : c.plain.extending = c.extending := by
  unfold extending
  rw [here_plain h]
  rfl

theorem oldestProperties_plain (h : c.Blind) : c.plain.oldestProperties = c.oldestProperties := by
  unfold oldestProperties
  rw [part_plain h]
  rfl

theorem oldestDependencies_plain (h : c.Blind) :
    c.plain.oldestDependencies = c.oldestDependencies := by
  unfold oldestDependencies
  rw [here_plain h]
  rfl

end Check

/-! ### Coverage -/

namespace Coverage

variable {α : Type}

def plain (c : Coverage) : Coverage := { c with toApplier := c.toApplier.plain }

abbrev Blind (c : Coverage) : Prop := c.toApplier.Blind

/-- What a search finds does not depend on a harmless ignored keyword. -/
def Search.Blind (search : Search α) : Prop := ∀ c : Coverage, c.Blind → search c.plain = search c

variable {c : Coverage} {search : Search α}

theorem isSatisfied_plain (h : c.Blind) : c.plain.isSatisfied = c.isSatisfied := by
  unfold isSatisfied
  rw [show c.plain.applyInside = c.applyInside from Applier.applyInside_plain h]
  rfl

theorem accepts_plain (h : c.Blind) : c.plain.accepts = c.accepts := Applier.accepts_plain h

theorem optional_plain (h : c.Blind) (hs : search.Blind) :
    c.plain.optional search = c.optional search := by
  unfold optional
  rw [hs c h]

theorem referred_plain (h : c.Blind) (hs : search.Blind) :
    c.plain.referred search = c.referred search := by
  funext found
  unfold referred
  rw [show c.plain.policy.within found.1 = _ from c.policy.within_plain found.1]
  cases hp : c.policy.within found.1 with
  | error e => rfl
  | ok p =>
    exact congrFun (hs { c with policy := p, scope := found.2 } (h.within hp)) found.1

theorem followed_plain (h : c.Blind) (hs : search.Blind) :
    c.plain.followed search = c.followed search := by
  unfold followed
  rw [referred_plain h hs]
  rfl

theorem references_plain (h : c.Blind) (hs : search.Blind) :
    c.plain.references search = c.references search := by
  unfold references
  rw [followed_plain h hs, referred_plain h hs]
  rfl

theorem combined_plain (h : c.Blind) (hs : search.Blind) :
    c.plain.combined search = c.combined search := by
  unfold combined
  rw [isSatisfied_plain h, hs c h]
  rfl

theorem conditional_plain (h : c.Blind) (hs : search.Blind) :
    c.plain.conditional search = c.conditional search := by
  unfold conditional
  rw [accepts_plain h, hs c h, optional_plain h hs]
  rfl

theorem placesOf_plain (h : c.Blind) : c.plain.placesOf = c.placesOf := by
  unfold placesOf
  rw [accepts_plain h]
  rfl

theorem placesBeside_plain (h : c.Blind) {search : Search Nat} (hs : search.Blind) :
    c.plain.placesBeside search = c.placesBeside search := by
  unfold placesBeside
  rw [conditional_plain h hs, placesOf_plain h, combined_plain h hs]

theorem places_blind (depth : Nat) : (places depth).Blind := by
  induction depth with
  | zero => exact fun c h => rfl
  | succ depth ih =>
    intro c h
    funext schema
    cases schema with
    | object es =>
      rw [places, references_plain h ih, placesBeside_plain h ih]
      rfl
    | _ => rfl

theorem keysOf_plain (h : c.Blind) : c.plain.keysOf = c.keysOf := by
  unfold keysOf
  rw [isSatisfied_plain h]
  rfl

theorem keysOfMembers_plain (h : c.Blind) : c.plain.keysOfMembers = c.keysOfMembers := by
  unfold keysOfMembers
  rw [keysOf_plain h]
  rfl

theorem keysDependent_plain (h : c.Blind) {search : Search Key} (hs : search.Blind) :
    c.plain.keysDependent search = c.keysDependent search := by
  unfold keysDependent
  rw [hs c h]
  rfl

theorem keys_blind (depth : Nat) : (keys depth).Blind := by
  induction depth with
  | zero => exact fun c h => rfl
  | succ depth ih =>
    intro c h
    funext schema
    cases schema with
    | object es =>
      rw [keys, references_plain h ih, keysOfMembers_plain h, keysDependent_plain h ih,
        combined_plain h ih, conditional_plain h ih]
      rfl
    | _ => rfl

end Coverage

namespace Check

variable {c : Check}

theorem unevaluatedItems_plain (h : c.Blind) : c.plain.unevaluatedItems = c.unevaluatedItems := by
  unfold unevaluatedItems
  rw [show Coverage.places c.plain.depth c.plain.coverage = _ from
    Coverage.places_blind c.depth c.coverage h]
  rfl

theorem uncovered_plain (h : c.Blind) : c.plain.uncovered = c.uncovered := by
  unfold uncovered
  rw [applyInside_plain h]
  rfl

theorem unevaluatedProperties_plain (h : c.Blind) :
    c.plain.unevaluatedProperties = c.unevaluatedProperties := by
  unfold unevaluatedProperties
  rw [uncovered_plain h, show Coverage.keys c.plain.depth c.plain.coverage = _ from
    Coverage.keys_blind c.depth c.coverage h]
  rfl

end Check

end Reshape.Schema
