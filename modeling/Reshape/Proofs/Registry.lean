import Mathlib.Data.List.Nodup
import Reshape.Proofs.Outcome
import Reshape.Registry

/-! Registries and the strategies that they make. A registry is built by calls, each of which
registers a representation or a family or is refused. In every registry that is built this way, a
family reads no representation or a registered one, and has a name that directives can show. -/

namespace Reshape

/-- The factory makes strategies that read what the family declares, or rejects the expression. -/
def Family.Orderly (f : Family) : Prop :=
  ∀ e, (∃ t, f.make e = .ok t ∧ t.representation = f.representation) ∨
    ∃ name text reason p, f.make e = .error (.fault (.invalidExpression name text reason p))

namespace Registry

variable {r : Registry}

theorem mem_of_find? {name : String} {f : Family} (h : r.find? name = some f) : f ∈ r.families :=
  List.mem_of_find?_eq_some h

theorem find?_of_contains {name : String} (h : r.contains name = true) :
    ∃ f, r.find? name = some f :=
  Option.isSome_iff_exists.mp h

theorem hasRepresentation_iff {name : String} :
    r.hasRepresentation name = true ↔ ∃ x ∈ r.representations, x.name = name := by
  simp [hasRepresentation]

/-! ### Making strategies -/

/-- A strategy is made by a registered family, and reads what that family declares. -/
theorem create_eq_ok {name e : String} {t : Strategy} :
    r.create name e = .ok t ↔
      ∃ f, r.find? name = some f ∧ f.make e = .ok t ∧ t.representation = f.representation := by
  have hmade : ∀ f : Family, f.create e = .ok t ↔
      f.make e = .ok t ∧ t.representation = f.representation := by
    intro f
    rw [Family.create, Except.bind_eq_ok]
    constructor
    · rintro ⟨u, hu, h⟩
      split_ifs at h with hr
      obtain rfl := Except.ok.inj h
      exact ⟨hu, hr⟩
    · rintro ⟨ht, hr⟩
      exact ⟨t, ht, if_pos hr⟩
  cases hf : r.find? name with
  | none => simp [create, get, hf]
  | some f => simp [create, get, hf, hmade]

/-- An orderly family's factory decides alone whether it makes a strategy. -/
theorem create_of_orderly {name : String} {f : Family} (hf : r.find? name = some f)
    (ho : f.Orderly) (e : String) : r.create name e = f.make e := by
  have hcreate : r.create name e = f.create e := by simp [create, get, hf]
  rw [hcreate, Family.create]
  rcases ho e with ⟨t, ht, hr⟩ | ⟨_, _, _, _, he⟩
  · rw [ht, Except.ok_bind, if_pos hr]
    rfl
  · rw [he]
    rfl

/-- The family of a directive is registered if the default family is. -/
theorem contains_splitIn {default : String} (h : r.contains default = true) (text : String) :
    r.contains (Directive.splitIn r text default).family = true := by
  unfold Directive.splitIn Directive.split
  split
  · split_ifs with hc
    · exact (Bool.and_eq_true_iff.mp hc).2
    · exact h
  · exact h

/-! ### Building -/

/-- A call of a builder. -/
inductive Registration
  | representation (x : Representation)
  | family (f : Family)

/-- A call that is refused leaves what was registered before. -/
def register (r : Registry) : Registration → Registry
  | .representation x => (r.addRepresentation x).toOption.getD r
  | .family f => (r.addFamily f).toOption.getD r

/-- The registry that calls of a new builder give. -/
def built (calls : List Registration) : Registry := calls.foldl register .empty

/-- Every family reads no representation or a registered one, and has a name that directives can show. -/
def Closed (r : Registry) : Prop :=
  ∀ f ∈ r.families, ∀ name, f.representation = some name → r.hasRepresentation name = true

/-- What must hold of a family that is registered. -/
structure Admits (r : Registry) (f : Family) : Prop where
  named : f.name ≠ ""
  colonless : ':' ∉ f.name.toList
  short : f.name.length ≤ nameLimit
  fresh : r.contains f.name = false
  served : r.missing? f = none

theorem addRepresentation_eq_ok {x : Representation} {r' : Registry}
    (h : r.addRepresentation x = .ok r') : r.hasRepresentation x.name = false ∧
      r' = { r with representations := r.representations ++ [x] } := by
  unfold addRepresentation at h
  split_ifs at h with hx
  exact ⟨Bool.eq_false_iff.mpr hx, (Except.ok.inj h).symm⟩

theorem addFamily_eq_ok {f : Family} {r' : Registry} (h : r.addFamily f = .ok r') :
    r.Admits f ∧ r' = { r with families := r.families ++ [f] } := by
  unfold addFamily at h
  split_ifs at h with hname hlength hfresh
  split at h
  · cases h
  · next hm =>
    obtain ⟨hempty, hcolon⟩ : f.name ≠ "" ∧ ':' ∉ f.name.toList := by simpa using hname
    exact ⟨⟨hempty, hcolon, Nat.le_of_not_lt hlength, Bool.eq_false_iff.mpr hfresh, hm⟩,
      (Except.ok.inj h).symm⟩

/-- A call is refused, or registers a new representation or a family that is admitted. -/
theorem register_cases {P : Registry → Prop} (c : Registration) (refused : P r)
    (representation : ∀ x, r.hasRepresentation x.name = false →
      P { r with representations := r.representations ++ [x] })
    (family : ∀ f, r.Admits f → P { r with families := r.families ++ [f] }) : P (r.register c) := by
  cases c with
  | representation x =>
    cases ha : r.addRepresentation x with
    | error e => simpa [register, ha, Except.toOption] using refused
    | ok r' =>
      obtain ⟨hx, rfl⟩ := addRepresentation_eq_ok ha
      simpa [register, ha, Except.toOption] using representation x hx
  | family f =>
    cases ha : r.addFamily f with
    | error e => simpa [register, ha, Except.toOption] using refused
    | ok r' =>
      obtain ⟨hf, rfl⟩ := addFamily_eq_ok ha
      simpa [register, ha, Except.toOption] using family f hf

/-- What holds of the empty registry and is kept by every call holds of a registry that is built. -/
theorem built_induction {P : Registry → Prop} (hempty : P .empty)
    (hcall : ∀ r c, P r → P (register r c)) (calls : List Registration) : P (built calls) := by
  have hrun : ∀ r : Registry, P r → P (calls.foldl register r) := by
    induction calls with
    | nil => exact fun _ h => h
    | cons c rest ih => exact fun r h => ih _ (hcall r c h)
  exact hrun .empty hempty

/-! ### Representations of families -/

theorem Closed.addRepresentation (h : r.Closed) (x : Representation) :
    Closed { r with representations := r.representations ++ [x] } := by
  intro f hf name hn
  obtain ⟨y, hy, rfl⟩ := hasRepresentation_iff.mp (h f hf name hn)
  exact hasRepresentation_iff.mpr ⟨y, List.mem_append_left _ hy, rfl⟩

theorem Closed.addFamily (h : r.Closed) {f : Family} (hf : r.missing? f = none) :
    Closed { r with families := r.families ++ [f] } := by
  intro g hg name hn
  rcases List.mem_append.mp hg with hg | hg
  · exact h g hg name hn
  · obtain rfl := List.mem_singleton.mp hg
    have hreg : r.hasRepresentation name = true := by simpa [missing?, hn, Option.filter] using hf
    exact hreg

theorem Closed.register (h : r.Closed) (c : Registration) : (r.register c).Closed :=
  register_cases c h (fun x _ => h.addRepresentation x) fun _ hf => h.addFamily hf.served

theorem closed_built (calls : List Registration) : (built calls).Closed :=
  built_induction (fun _ hf => absurd hf List.not_mem_nil) (fun _ c h => h.register c) calls

/-! ### Names -/

/-- Representations have different names. -/
def Distinct (r : Registry) : Prop := (r.representations.map (·.name)).Nodup

theorem Distinct.register (h : r.Distinct) (c : Registration) : (r.register c).Distinct := by
  refine register_cases c h (fun x hx => ?_) fun _ _ => h
  have hnew : x.name ∉ r.representations.map (·.name) := by
    intro hm
    obtain ⟨y, hy, he⟩ := List.mem_map.mp hm
    simp [hasRepresentation_iff.mpr ⟨y, hy, he⟩] at hx
  simp only [Distinct, List.map_append, List.map_cons, List.map_nil]
  exact h.append (List.nodup_singleton _) (by simpa using hnew)

theorem distinct_built (calls : List Registration) : (built calls).Distinct :=
  built_induction (by simp [Distinct, empty]) (fun _ c h => h.register c) calls

/-- Names of families can stand before the colon of a directive. -/
def Addressable (r : Registry) : Prop :=
  ∀ f ∈ r.families, f.name ≠ "" ∧ ':' ∉ f.name.toList ∧ f.name.toList.length < Directive.window

theorem Addressable.register (h : r.Addressable) (c : Registration) : (r.register c).Addressable := by
  refine register_cases c h (fun _ _ => h) fun f hf g hg => ?_
  rcases List.mem_append.mp hg with hg | hg
  · exact h g hg
  · obtain rfl := List.mem_singleton.mp hg
    exact ⟨hf.named, hf.colonless, Nat.lt_of_le_of_lt hf.short (by decide)⟩

theorem addressable_built (calls : List Registration) : (built calls).Addressable :=
  built_induction (fun _ hf => absurd hf List.not_mem_nil) (fun _ c h => h.register c) calls

/-- The name of a registered family can stand before the colon of a directive. -/
theorem Addressable.of_contains (h : r.Addressable) {name : String} (hn : r.contains name = true) :
    name ≠ "" ∧ ':' ∉ name.toList ∧ name.toList.length < Directive.window := by
  obtain ⟨f, hf⟩ := find?_of_contains hn
  obtain rfl : f.name = name := by simpa using List.find?_some hf
  exact h f (mem_of_find? hf)

/-! ### Growth -/

/-- The first registry is what the second one was before more was registered. -/
structure Extends (r r' : Registry) : Prop where
  families : r.families <+: r'.families
  representations : r.representations <+: r'.representations

theorem Extends.register {r r' : Registry} (h : r.Extends r') (c : Registration) :
    r.Extends (r'.register c) :=
  register_cases c h (fun _ _ => ⟨h.families, h.representations.trans (List.prefix_append _ _)⟩)
    fun _ _ => ⟨h.families.trans (List.prefix_append _ _), h.representations⟩

theorem extends_foldl (r : Registry) (more : List Registration) :
    r.Extends (more.foldl Registry.register r) := by
  have hrun : ∀ r' : Registry, r.Extends r' → r.Extends (more.foldl Registry.register r') := by
    induction more with
    | nil => exact fun _ h => h
    | cons c rest ih => exact fun r' h => ih _ (h.register c)
  exact hrun r ⟨List.prefix_rfl, List.prefix_rfl⟩

/-- Later calls only add to what earlier calls have registered. -/
theorem extends_built (calls more : List Registration) :
    (built calls).Extends (built (calls ++ more)) := by
  rw [built, built, List.foldl_append]
  exact extends_foldl _ more

theorem Extends.find? {r r' : Registry} (h : r.Extends r') {name : String}
    (hn : r.contains name = true) : r'.find? name = r.find? name := by
  obtain ⟨rest, hrest⟩ := h.families
  obtain ⟨f, hf⟩ := find?_of_contains hn
  rw [Registry.find?] at hf
  simp only [Registry.find?, ← hrest, List.find?_append, hf, Option.some_or]

theorem Extends.contains {r r' : Registry} (h : r.Extends r') {name : String}
    (hn : r.contains name = true) : r'.contains name = true := by
  rw [Registry.contains, h.find? hn]
  exact hn

/-- Families that are there make the same strategies as before. -/
theorem Extends.create {r r' : Registry} (h : r.Extends r') {name : String}
    (hn : r.contains name = true) (e : String) : r'.create name e = r.create name e := by
  simp only [Registry.create, get, h.find? hn]

/-- The default registry is built by calls, none of which is refused. -/
example : default =
    built ([.representation .json, .representation .decimal] ++ builtinFamilies.map .family) := rfl

/-- A strategy of a closed registry reads no representation or a registered one. -/
theorem Closed.of_create (h : r.Closed) {name e : String} {t : Strategy}
    (ht : r.create name e = .ok t) {x : String} (hx : t.representation = some x) :
    r.hasRepresentation x = true := by
  obtain ⟨f, hf, -, hr⟩ := create_eq_ok.mp ht
  exact h f (mem_of_find? hf) x (hr ▸ hx)

end Registry

end Reshape
