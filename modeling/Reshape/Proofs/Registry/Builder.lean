import Reshape.Builder
import Reshape.Proofs.Registry

/-! What a builder keeps over whatever it is asked to do. Its tables stay sound, a call is refused if
and only if they would not be, and a refused call changes nothing. The tables of a registry are never
those of the builder, so that no call changes a registry that was built before. -/

namespace Reshape

namespace Registry

/-! ### Sound registries -/

/-- Families have different names that directives can show, and read no representation or a registered
one; representations have different names. -/
structure Sound (r : Registry) : Prop where
  addressable : r.Addressable
  unique : (r.families.map (·.name)).Nodup
  closed : r.Closed
  distinct : r.Distinct

/-- What is registered if a call is not refused. -/
def after (r : Registry) : Builder.Call → Registry
  | .representation x => { r with representations := r.representations ++ [x] }
  | .family f => { r with families := r.families ++ [f] }
  | .build => r

variable {r : Registry}

theorem contains_eq_false_iff {name : String} :
    r.contains name = false ↔ name ∉ r.families.map (·.name) := by
  simp [contains, find?]

theorem hasRepresentation_eq_false_iff {name : String} :
    r.hasRepresentation name = false ↔ name ∉ r.representations.map (·.name) := by
  simp [hasRepresentation]

theorem nodup_map_concat {α : Type} {f : α → String} {l : List α} {a : α}
    (h : (l.map f).Nodup) : ((l ++ [a]).map f).Nodup ↔ f a ∉ l.map f := by
  rw [List.map_append, List.map_singleton, List.nodup_append_comm, List.singleton_append,
    List.nodup_cons]
  exact and_iff_left h

theorem missing?_eq_none_iff {f : Family} :
    r.missing? f = none ↔ ∀ n, f.representation = some n → r.hasRepresentation n = true := by
  simp [missing?, Option.filter_eq_none_iff]

/-- A representation may be registered under a new name. -/
theorem Sound.representation_iff (h : r.Sound) (x : Representation) :
    (r.after (.representation x)).Sound ↔ r.hasRepresentation x.name = false := by
  rw [hasRepresentation_eq_false_iff, ← nodup_map_concat h.distinct]
  exact ⟨fun h => h.distinct, fun hx => ⟨h.addressable, h.unique, h.closed.addRepresentation x, hx⟩⟩

/-- A family may be registered if it is admitted. -/
theorem Sound.family_iff (h : r.Sound) (f : Family) :
    (r.after (.family f)).Sound ↔ r.Admits f := by
  constructor
  · intro hafter
    have hf : f ∈ (r.after (.family f)).families := List.mem_append_right _ (List.mem_singleton_self f)
    obtain ⟨hnamed, hcolon, hshort⟩ := hafter.addressable f hf
    have hfresh := (nodup_map_concat h.unique).mp hafter.unique
    exact ⟨hnamed, hcolon, Nat.le_pred_of_lt hshort, contains_eq_false_iff.mpr hfresh,
      missing?_eq_none_iff.mpr (hafter.closed f hf)⟩
  · intro hf
    refine ⟨?_, (nodup_map_concat h.unique).mpr (contains_eq_false_iff.mp hf.fresh),
      h.closed.addFamily hf.served, h.distinct⟩
    intro g hg
    rcases List.mem_append.mp hg with hg | hg
    · exact h.addressable g hg
    · obtain rfl := List.mem_singleton.mp hg
      exact ⟨hf.named, hf.colonless, Nat.lt_of_le_of_lt hf.short (by decide)⟩

theorem Sound.addRepresentation_eq_ok_iff (h : r.Sound) {x : Representation} {r' : Registry} :
    r.addRepresentation x = .ok r' ↔
      (r.after (.representation x)).Sound ∧ r' = r.after (.representation x) := by
  rw [h.representation_iff x]
  constructor
  · exact addRepresentation_eq_ok
  · rintro ⟨hx, rfl⟩
    simp [addRepresentation, hx, after]

theorem Sound.addFamily_eq_ok_iff (h : r.Sound) {f : Family} {r' : Registry} :
    r.addFamily f = .ok r' ↔ (r.after (.family f)).Sound ∧ r' = r.after (.family f) := by
  rw [h.family_iff f]
  constructor
  · exact addFamily_eq_ok
  · rintro ⟨hf, rfl⟩
    simp [addFamily, hf.named, hf.colonless, Nat.not_lt.mpr hf.short, hf.fresh, hf.served, after]

theorem sound_empty : empty.Sound :=
  ⟨fun _ hf => absurd hf List.not_mem_nil, List.nodup_nil,
    fun _ hf => absurd hf List.not_mem_nil, List.nodup_nil⟩

/-- The built-in families are what calls of a new builder register. -/
theorem sound_default : default.Sound := by
  let calls : List Registration :=
    [.representation .json, .representation .decimal] ++ builtinFamilies.map .family
  have hdefault : default = built calls := rfl
  refine ⟨?_, by decide, ?_, ?_⟩ <;> rw [hdefault]
  · exact addressable_built calls
  · exact closed_built calls
  · exact distinct_built calls

end Registry

namespace Memory

variable {m : Memory} {t u : Tables}

/-- There are such tables. -/
def Holds (m : Memory) (t : Tables) : Prop :=
  t.families < m.families.length ∧ t.representations < m.representations.length

theorem read_write (h : m.Holds t) (r : Registry) : (m.write t r).read t = r := by
  obtain ⟨hf, hr⟩ := h
  simp [read, write, hf, hr]

theorem read_write_of_ne (hf : u.families ≠ t.families) (hr : u.representations ≠ t.representations)
    (r : Registry) : (m.write u r).read t = m.read t := by
  simp [read, write, hf, hr]

theorem read_make (r : Registry) : (m.make r).2.read (m.make r).1 = r := by
  simp [read, make]

theorem read_make_of_holds (h : m.Holds t) (r : Registry) : (m.make r).2.read t = m.read t := by
  obtain ⟨hf, hr⟩ := h
  simp [read, make, List.getElem?_append_left, hf, hr]

theorem Holds.write (h : m.Holds t) (u : Tables) (r : Registry) : (m.write u r).Holds t := by
  simpa [Holds, Memory.write] using h

theorem Holds.make (h : m.Holds t) (r : Registry) : (m.make r).2.Holds t := by
  obtain ⟨hf, hr⟩ := h
  exact ⟨by simp [Memory.make]; omega, by simp [Memory.make]; omega⟩

end Memory

namespace Builder

variable {b : Builder}

/-! ### Tables -/

/-- The builder shares no table with what it has built. -/
structure Separate (b : Builder) : Prop where
  held : b.memory.Holds b.tables
  built : ∀ t ∈ b.built, b.memory.Holds t ∧ t.families ≠ b.tables.families ∧
    t.representations ≠ b.tables.representations

theorem separate_start (r : Registry) : (start r).Separate :=
  ⟨⟨Nat.zero_lt_one, Nat.zero_lt_one⟩, fun _ ht => absurd ht List.not_mem_nil⟩

theorem Separate.write (h : b.Separate) (r : Registry) :
    Separate { b with memory := b.memory.write b.tables r } :=
  ⟨h.held.write _ r, fun t ht => ⟨(h.built t ht).1.write _ r, (h.built t ht).2⟩⟩

theorem Separate.build (h : b.Separate) : b.build.Separate := by
  refine ⟨h.held.make _, fun t ht => ?_⟩
  rcases List.mem_append.mp ht with ht | ht
  · exact ⟨(h.built t ht).1.make _, (h.built t ht).2⟩
  · obtain rfl := List.mem_singleton.mp ht
    refine ⟨⟨by simp [Builder.build, Memory.make], by simp [Builder.build, Memory.make]⟩, ?_, ?_⟩
    · exact Nat.ne_of_gt h.held.1
    · exact Nat.ne_of_gt h.held.2

/-! ### Steps -/

/-- A call is refused, or something is registered, or a registry is built. -/
inductive Stepped (b : Builder) : Call → Except RegistryFault Unit → Builder → Prop
  | refused {c : Call} (e : RegistryFault) : ¬ (b.current.after c).Sound → b.Stepped c (.error e) b
  | registered {c : Call} : (b.current.after c).Sound →
      b.Stepped c (.ok ()) { b with memory := b.memory.write b.tables (b.current.after c) }
  | built : b.Stepped .build (.ok ()) b.build

theorem stepped_register {c : Call} {result : Except RegistryFault Registry}
    (h : ∀ r, result = .ok r ↔ (b.current.after c).Sound ∧ r = b.current.after c) :
    b.Stepped c (b.register result).1 (b.register result).2 := by
  cases result with
  | error e =>
    refine .refused e fun hsound => ?_
    cases (h _).mpr ⟨hsound, rfl⟩
  | ok r =>
    obtain ⟨hsound, rfl⟩ := (h r).mp rfl
    exact .registered hsound

theorem stepped (h : b.current.Sound) (c : Call) : b.Stepped c (b.step c).1 (b.step c).2 := by
  cases c with
  | representation x => exact stepped_register fun _ => h.addRepresentation_eq_ok_iff
  | family f => exact stepped_register fun _ => h.addFamily_eq_ok_iff
  | build => exact .built

/-- What every call keeps. -/
structure Orderly (b : Builder) : Prop where
  separate : b.Separate
  sound : b.current.Sound

theorem orderly_start {r : Registry} (h : r.Sound) : (start r).Orderly :=
  ⟨separate_start r, h⟩

variable {c : Call} {result : Except RegistryFault Unit} {b' : Builder}

theorem Stepped.refused_iff (h : b.Stepped c result b') (hb : b.current.Sound) :
    (∃ e, result = .error e) ↔ ¬ (b.current.after c).Sound := by
  cases h with
  | refused e hsound => exact iff_of_true ⟨e, rfl⟩ hsound
  | registered hsound => exact iff_of_false nofun (not_not_intro hsound)
  | built => exact iff_of_false nofun (not_not_intro hb)

theorem Stepped.eq_of_refused {e : RegistryFault} (h : b.Stepped c (.error e) b') : b' = b := by
  cases h
  rfl

theorem Stepped.current (h : b.Stepped c (.ok ()) b') (hb : b.Separate) :
    b'.current = b.current.after c := by
  cases h with
  | registered => exact Memory.read_write hb.held _
  | built => exact Memory.read_make_of_holds hb.held _

theorem Stepped.orderly (h : b.Stepped c result b') (hb : b.Orderly) : b'.Orderly := by
  cases h with
  | refused => exact hb
  | registered hsound =>
    refine ⟨hb.separate.write _, ?_⟩
    rwa [Builder.current, Memory.read_write hb.separate.held]
  | built =>
    refine ⟨hb.separate.build, ?_⟩
    rw [Builder.current, Builder.build, Memory.read_make_of_holds hb.separate.held]
    exact hb.sound

/-- A registry that was built keeps its tables. -/
theorem Stepped.read (h : b.Stepped c result b') (hb : b.Separate) {t : Tables} (ht : t ∈ b.built) :
    t ∈ b'.built ∧ b'.memory.read t = b.memory.read t := by
  obtain ⟨hheld, hf, hr⟩ := hb.built t ht
  cases h with
  | refused => exact ⟨ht, rfl⟩
  | registered => exact ⟨ht, Memory.read_write_of_ne hf.symm hr.symm _⟩
  | built => exact ⟨List.mem_append_left _ ht, Memory.read_make_of_holds hheld _⟩

/-! ### Runs -/

theorem run_cons (b : Builder) (c : Call) (calls : List Call) :
    b.run (c :: calls) = (b.step c).2.run calls := rfl

theorem Orderly.run (h : b.Orderly) (calls : List Call) : (b.run calls).Orderly := by
  induction calls generalizing b with
  | nil => exact h
  | cons c calls ih => exact ih ((stepped h.sound c).orderly h)

theorem Orderly.read_run (h : b.Orderly) (calls : List Call) {t : Tables} (ht : t ∈ b.built) :
    (b.run calls).memory.read t = b.memory.read t := by
  induction calls generalizing b with
  | nil => rfl
  | cons c calls ih =>
    have hstep := stepped h.sound c
    obtain ⟨ht', hread⟩ := hstep.read h.separate ht
    rw [run_cons, ih (hstep.orderly h) ht', hread]

/-- Over whatever calls of a new builder, at every point: what is registered is sound; the next call
is refused if and only if what it would register is not, and then changes nothing, and registers just
that otherwise; a registry is built with what is registered, and no later call changes what any
registry that has been built holds. -/
theorem run_sound {b₀ : Builder} (h₀ : b₀ = start .empty ∨ b₀ = start .default)
    (earlier : List Call) (c : Call) (later : List Call) :
    let b := b₀.run earlier
    let result := (b.step c).1
    let b' := (b.step c).2
    b.current.Sound ∧
      ((∃ e, result = .error e) ↔ ¬ (b.current.after c).Sound) ∧
      (∀ e, result = .error e → b' = b) ∧
      (result = .ok () → b'.current = b.current.after c) ∧
      (c = .build → ∃ t, b'.built = b.built ++ [t] ∧ b'.memory.read t = b.current) ∧
      ∀ t ∈ b'.built, (b'.run later).memory.read t = b'.memory.read t := by
  intro b result b'
  have hb : b.Orderly := by
    rcases h₀ with rfl | rfl
    · exact (orderly_start Registry.sound_empty).run earlier
    · exact (orderly_start Registry.sound_default).run earlier
  have hstep : b.Stepped c result b' := stepped hb.sound c
  refine ⟨hb.sound, hstep.refused_iff hb.sound, fun e he => ?_, fun hok => ?_, ?_,
    fun t ht => (hstep.orderly hb).read_run later ht⟩
  · exact (he ▸ hstep).eq_of_refused
  · exact (hok ▸ hstep).current hb.separate
  · rintro rfl
    exact ⟨_, rfl, Memory.read_make _⟩

/-- A family that is registered after building is not in the registry, and its name is taken. -/
theorem run_sound_taken :
    let kind : Family := ⟨"kind", some "json", Strategy.jmesPath⟩
    let b := (start .default).run [.build, .family kind]
    (∃ e, (b.step (.family kind)).1 = .error e) ∧ (b.step (.family kind)).2 = b ∧
      b.current.contains "kind" = true ∧ (b.latest.map (·.contains "kind")) = some false := by
  intro kind b
  obtain ⟨-, -, hsame, -, -, -⟩ := run_sound (.inr rfl) [.build, .family kind] (.family kind) []
  obtain ⟨-, -, -, -, -, hkept⟩ := run_sound (.inr rfl) [] .build [.family kind]
  have hbuilt : b.memory.read ⟨1, 1⟩ = .default := hkept ⟨1, 1⟩ List.mem_cons_self
  have hrefused : (b.step (.family kind)).1 = .error (.familyTaken "kind") := by decide
  refine ⟨⟨_, hrefused⟩, hsame _ hrefused, by decide, ?_⟩
  have hplaces : b.built = [⟨1, 1⟩] := by decide
  rw [latest, hplaces, List.getLast?_singleton, Option.map_some, hbuilt]
  decide

end Builder

end Reshape
