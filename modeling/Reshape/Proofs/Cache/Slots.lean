import Mathlib.Data.List.Forall2
import Reshape.Cache

/-! Slots of a cache over time. A request fills an empty slot or leaves all as it was; a full slot
never changes. When builders are functions of the bytes, the cache of a document answers every
request as if each were the first one. -/

namespace Reshape

/-- Building from these bytes does not depend on the number of the call. -/
def Representation.Steady (raw : Text.Bytes) (r : Representation) : Prop :=
  ∀ j k, r.build j raw = r.build k raw

namespace Slot

/-- A later state of a slot. A full slot stays as it is. -/
def Later (a b : Slot) : Prop :=
  b = a ∨ (a.content = none ∧ b.representation = a.representation)

theorem Later.trans {a b c : Slot} (h₁ : a.Later b) (h₂ : b.Later c) : a.Later c := by
  rcases h₁ with rfl | ⟨ha, hb⟩
  · exact h₂
  · rcases h₂ with rfl | ⟨-, hc⟩
    · exact .inr ⟨ha, hb⟩
    · exact .inr ⟨ha, hc.trans hb⟩

/-- A slot of a steady representation that holds nothing but what its builder gives. -/
structure Sound (raw : Text.Bytes) (s : Slot) : Prop where
  steady : s.representation.Steady raw
  content : ∀ v, s.content = some v → s.representation.build 0 raw = .ok v

end Slot

namespace Cache

/-! ### Filling -/

theorem later_slots_trans {xs ys zs : List Slot} (h₁ : List.Forall₂ Slot.Later xs ys)
    (h₂ : List.Forall₂ Slot.Later ys zs) : List.Forall₂ Slot.Later xs zs := by
  induction h₁ generalizing zs with
  | nil => exact h₂
  | cons hab _ ih =>
    cases h₂ with
    | cons hbc hrest => exact .cons (hab.trans hbc) (ih hrest)

/-- A later state of a cache: only empty slots have changed. -/
structure Later (c d : Cache) : Prop where
  raw : d.raw = c.raw
  slots : List.Forall₂ Slot.Later c.slots d.slots

theorem Later.refl (c : Cache) : Later c c :=
  ⟨rfl, List.forall₂_same.mpr fun _ _ => .inl rfl⟩

theorem Later.trans {c d e : Cache} (h₁ : Later c d) (h₂ : Later d e) : Later c e :=
  ⟨h₂.raw.trans h₁.raw, later_slots_trans h₁.slots h₂.slots⟩

theorem later_fill (raw : Text.Bytes) (s : Slot) : Slot.Later s (fill raw s).2 := by
  unfold fill
  cases hc : s.content with
  | some v => exact .inl rfl
  | none => cases s.representation.build s.calls raw <;> exact .inr ⟨hc, rfl⟩

theorem later_request (raw : Text.Bytes) (name : String) (slots : List Slot) :
    List.Forall₂ Slot.Later slots (request raw name slots).2 := by
  induction slots with
  | nil => exact .nil
  | cons s rest ih =>
    by_cases hn : s.representation.name = name
    · simp only [request, hn, if_true]
      exact .cons (later_fill raw s) (List.forall₂_same.mpr fun _ _ => .inl rfl)
    · simp only [request, hn, if_false]
      exact .cons (.inl rfl) ih

theorem later_get (c : Cache) (name : String) : c.Later (c.get name).2 :=
  ⟨rfl, later_request c.raw name c.slots⟩

/-- A cache of a document, with slots for these representations. -/
structure Over (raw : Text.Bytes) (rs : List Representation) (c : Cache) : Prop where
  raw : c.raw = raw
  representations : c.slots.map (·.representation) = rs

theorem over_ofDocument (raw : Text.Bytes) (rs : List Representation) :
    Over raw rs (ofDocument raw rs) :=
  ⟨rfl, by simp [ofDocument, Function.comp_def, Slot.empty]⟩

theorem Later.representations {c d : Cache} (h : c.Later d) :
    d.slots.map (·.representation) = c.slots.map (·.representation) := by
  have hs := h.slots
  generalize c.slots = xs, d.slots = ys at hs
  induction hs with
  | nil => rfl
  | cons hab _ ih =>
    rcases hab with rfl | ⟨-, hr⟩
    · simp [ih]
    · simp [ih, hr]

theorem Over.later {raw : Text.Bytes} {rs : List Representation} {c d : Cache} (h : c.Over raw rs)
    (hl : c.Later d) : d.Over raw rs :=
  ⟨hl.raw.trans h.raw, hl.representations.trans h.representations⟩

/-! ### Failures -/

theorem fill_eq_error {raw : Text.Bytes} {s : Slot} {f : Failure} (h : (fill raw s).1 = .error f) :
    ∃ c, s.representation.build s.calls raw = .error c ∧ f = c.report s.representation.name := by
  unfold fill at h
  cases hv : s.content with
  | some v => simp [hv] at h
  | none =>
    cases hb : s.representation.build s.calls raw with
    | ok v => simp [hv, hb] at h
    | error c => exact ⟨c, rfl, by simpa [hv, hb, eq_comm] using h⟩

/-- A request fails where there is no slot, or with what the builder of the slot reports. -/
theorem request_eq_error {raw : Text.Bytes} {name : String} {slots : List Slot} {f : Failure}
    (h : (request raw name slots).1 = .error f) :
    (∀ s ∈ slots, s.representation.name ≠ name) ∧
        f = .fault (.representation name "unknown representation") ∨
      ∃ s ∈ slots, s.representation.name = name ∧
        ∃ c, s.representation.build s.calls raw = .error c ∧ f = c.report name := by
  induction slots with
  | nil => exact .inl ⟨by simp, (Except.error.inj h).symm⟩
  | cons s rest ih =>
    by_cases hn : s.representation.name = name
    · simp only [request, hn, if_true] at h
      obtain ⟨c, hc, rfl⟩ := fill_eq_error h
      exact .inr ⟨s, List.mem_cons_self, hn, c, hc, by rw [hn]⟩
    · simp only [request, hn, if_false] at h
      rcases ih h with ⟨hrest, rfl⟩ | ⟨t, ht, hc⟩
      · exact .inl ⟨List.forall_mem_cons.mpr ⟨hn, hrest⟩, rfl⟩
      · exact .inr ⟨t, List.mem_cons_of_mem _ ht, hc⟩

theorem Over.get_eq_error {raw : Text.Bytes} {rs : List Representation} {c : Cache}
    (h : c.Over raw rs) {name : String} {f : Failure} (hf : (c.get name).1 = .error f) :
    (∀ x ∈ rs, x.name ≠ name) ∧ f = .fault (.representation name "unknown representation") ∨
      ∃ x ∈ rs, x.name = name ∧ ∃ k b, x.build k raw = .error b ∧ f = b.report name := by
  obtain ⟨rfl, rfl⟩ := h
  rcases request_eq_error hf with ⟨hno, rfl⟩ | ⟨s, hs, hn, b, hb, rfl⟩
  · exact .inl ⟨by simpa using hno, rfl⟩
  · exact .inr ⟨s.representation, List.mem_map_of_mem hs, hn, s.calls, b, hb, rfl⟩

/-! ### Answers -/

/-- The answer to the first request for a representation. -/
def answer (raw : Text.Bytes) (name : String) : List Representation → Outcome Value
  | [] => .error (.fault (.representation name "unknown representation"))
  | r :: rest =>
    if r.name = name then (r.build 0 raw).mapError (·.report name) else answer raw name rest

/-- A cache of a document that may have been used before. -/
structure Sound (bytes : Text.Bytes) (rs : List Representation) (c : Cache) : Prop where
  raw : c.raw = bytes
  representations : c.slots.map (·.representation) = rs
  slots : ∀ s ∈ c.slots, s.Sound bytes

theorem sound_ofDocument {raw : Text.Bytes} {rs : List Representation}
    (h : ∀ r ∈ rs, r.Steady raw) : Sound raw rs (ofDocument raw rs) := by
  refine ⟨rfl, by simp [ofDocument, Function.comp_def, Slot.empty], ?_⟩
  intro s hs
  obtain ⟨r, hr, rfl⟩ := List.mem_map.mp hs
  exact ⟨h r hr, by simp [Slot.empty]⟩

theorem fill_sound {raw : Text.Bytes} {s : Slot} (h : s.Sound raw) :
    (fill raw s).1 = (s.representation.build 0 raw).mapError (·.report s.representation.name) ∧
      (fill raw s).2.Sound raw := by
  unfold fill
  cases hc : s.content with
  | some v => simp [h.content v hc, Except.mapError, h]
  | none =>
    rw [h.steady s.calls 0]
    cases hb : s.representation.build 0 raw with
    | ok v => exact ⟨rfl, h.steady, by simp [hb]⟩
    | error f => exact ⟨rfl, h.steady, by simp⟩

theorem request_sound {raw : Text.Bytes} (name : String) {slots : List Slot}
    (h : ∀ s ∈ slots, s.Sound raw) :
    (request raw name slots).1 = answer raw name (slots.map (·.representation)) ∧
      ∀ s ∈ (request raw name slots).2, s.Sound raw := by
  induction slots with
  | nil => exact ⟨rfl, h⟩
  | cons s rest ih =>
    obtain ⟨hs, hrest⟩ := List.forall_mem_cons.mp h
    obtain ⟨ha, hr⟩ := ih hrest
    by_cases hn : s.representation.name = name
    · obtain ⟨hf, hf'⟩ := fill_sound hs
      simp only [request, answer, List.map_cons, hn, if_true]
      exact ⟨by rw [hf, hn], List.forall_mem_cons.mpr ⟨hf', hrest⟩⟩
    · simp only [request, answer, List.map_cons, hn, if_false]
      exact ⟨ha, List.forall_mem_cons.mpr ⟨hs, hr⟩⟩

/-- A used cache answers like a fresh one, and stays sound. -/
theorem Sound.get {raw : Text.Bytes} {rs : List Representation} {c : Cache} (h : Sound raw rs c)
    (name : String) : (c.get name).1 = answer raw name rs ∧ Sound raw rs (c.get name).2 := by
  have hlater := later_get c name
  have hslots : ∀ s ∈ c.slots, s.Sound c.raw := fun s hs => h.raw ▸ h.slots s hs
  obtain ⟨ha, hs⟩ := request_sound name hslots
  refine ⟨?_, ⟨hlater.raw.trans h.raw, hlater.representations.trans h.representations, ?_⟩⟩
  · rw [← h.representations, ← h.raw]; exact ha
  · intro s hm
    exact h.raw ▸ hs s hm

end Cache

end Reshape
