import Mathlib.Data.List.Induction
import Reshape.Proofs.Cache.Slots

/-! Histories of a cache. Each step asks for a representation or asks whether it is built, and the
answer of a builder may differ from call to call. `history_lawful` says of every step after every
history which builder it calls, what it answers, and what is built afterwards. -/

namespace Reshape.Cache

/-! ### Slots by name -/

def slot? (c : Cache) (name : String) : Option Slot :=
  c.slots.find? fun s => s.representation.name == name

/-- How often the builder of a name was called. -/
def callsOf (c : Cache) (name : String) : Nat := ((c.slot? name).map (·.calls)).getD 0

/-- What is built under a name. -/
def contentOf (c : Cache) (name : String) : Option Value := (c.slot? name).bind (·.content)

/-- The answer of the slot that is asked, if there is one. -/
def answerOf (raw : Text.Bytes) (name : String) : Option Slot → Outcome Value
  | none => .error (.fault (.representation name "unknown representation"))
  | some s => (fill raw s).1

theorem fst_request (raw : Text.Bytes) (name : String) (slots : List Slot) :
    (request raw name slots).1 =
      answerOf raw name (slots.find? fun s => s.representation.name == name) := by
  induction slots with
  | nil => rfl
  | cons s rest ih =>
    by_cases hn : s.representation.name = name
    · simp [request, hn, answerOf]
    · simp [request, hn, ih]

/-- A request changes no slot but the first one of its name. -/
theorem find?_request (raw : Text.Bytes) (name other : String) (slots : List Slot) :
    ((request raw name slots).2.find? fun s => s.representation.name == other) =
      if name = other then
        (slots.find? fun s => s.representation.name == other).map fun s => (fill raw s).2
      else slots.find? fun s => s.representation.name == other := by
  induction slots with
  | nil => simp [request]
  | cons s rest ih =>
    have hkeeps : (fill raw s).2.representation = s.representation := by
      rcases later_fill raw s with h | ⟨-, h⟩
      · rw [h]
      · exact h
    by_cases hn : s.representation.name = name
    · by_cases ho : name = other
      · subst ho
        simp [request, hn, hkeeps]
      · simp [request, hn, hkeeps, ho]
    · simp only [request, hn, if_false, List.find?_cons, ih]
      by_cases ho : s.representation.name = other
      · have hne : name ≠ other := fun h => hn (ho.trans h.symm)
        simp [ho, hne]
      · simp only [beq_eq_false_iff_ne.mpr ho]

/-- A name is built after a request if it was built before, or the request for it succeeds. -/
theorem isBuiltIn_request (raw : Text.Bytes) (name other : String) (slots : List Slot) :
    isBuiltIn other (request raw name slots).2 = true ↔
      isBuiltIn other slots = true ∨ name = other ∧ ∃ v, (request raw name slots).1 = .ok v := by
  induction slots with
  | nil => simp [request, isBuiltIn]
  | cons s rest ih =>
    by_cases hn : s.representation.name = name
    · simp only [request, hn, if_true]
      unfold fill
      cases hc : s.content with
      | some v => by_cases ho : name = other <;> simp [isBuiltIn, hn, hc, ho]
      | none =>
        cases s.representation.build s.calls raw <;> by_cases ho : name = other <;>
          simp [isBuiltIn, hn, hc, ho]
    · simp only [request, hn, if_false, isBuiltIn, List.any_cons, Bool.or_eq_true] at ih ⊢
      rw [ih, or_assoc]

theorem slot?_get (c : Cache) (name other : String) :
    (c.get name).2.slot? other =
      if name = other then (c.slot? other).map fun s => (fill c.raw s).2 else c.slot? other :=
  find?_request c.raw name other c.slots

theorem fst_get (c : Cache) (name : String) : (c.get name).1 = answerOf c.raw name (c.slot? name) :=
  fst_request c.raw name c.slots

theorem Over.map_slot? {raw : Text.Bytes} {rs : List Representation} {c : Cache} (h : c.Over raw rs)
    (name : String) :
    (c.slot? name).map (·.representation) = rs.find? fun x => x.name == name := by
  rw [← h.representations, List.find?_map]
  rfl

/-- The representation of a name, where names are different. -/
theorem find?_of_mem {rs : List Representation} (hd : (rs.map (·.name)).Nodup) {x : Representation}
    (hx : x ∈ rs) : (rs.find? fun y => y.name == x.name) = some x := by
  induction rs with
  | nil => cases hx
  | cons y rest ih =>
    obtain ⟨hy, hrest⟩ := List.nodup_cons.mp hd
    rcases List.mem_cons.mp hx with rfl | hx
    · simp
    · have hne : y.name ≠ x.name := fun h => hy (List.mem_map.mpr ⟨x, hx, h.symm⟩)
      simp [hne, ih hrest hx]

/-- Where names are different, a name is built if its slot is full. -/
theorem Over.isBuilt_iff {raw : Text.Bytes} {rs : List Representation} {c : Cache}
    (h : c.Over raw rs) (hd : (rs.map (·.name)).Nodup) {name : String} :
    c.isBuilt name = true ↔ ∃ s, c.slot? name = some s ∧ s.content.isSome = true := by
  have hslots : ∀ slots : List Slot, (slots.map fun s => s.representation.name).Nodup →
      (isBuiltIn name slots = true ↔
        ∃ s, (slots.find? fun s => s.representation.name == name) = some s ∧
          s.content.isSome = true) := by
    intro slots hd
    induction slots with
    | nil => simp [isBuiltIn]
    | cons s rest ih =>
      obtain ⟨hs, hrest⟩ := List.nodup_cons.mp hd
      by_cases hn : s.representation.name = name
      · have hno : isBuiltIn name rest = false := by
          simp only [isBuiltIn, List.any_eq_false, Bool.and_eq_true, beq_iff_eq]
          exact fun t ht h => hs (List.mem_map.mpr ⟨t, ht, h.1.trans hn.symm⟩)
        rw [isBuiltIn] at hno ⊢
        simp [hn, hno]
      · have ih := ih hrest
        rw [isBuiltIn] at ih ⊢
        simpa [hn] using ih
  refine hslots c.slots ?_
  rw [← h.representations, List.map_map] at hd
  exact hd

/-! ### Steps -/

/-- What is done with a cache. -/
inductive Step
  | get (name : String)
  | ensure (name : String)
  | isBuilt (name : String)

/-- What a step gives. -/
inductive Reply
  | value (v : Value)
  | done
  | flag (b : Bool)

namespace Step

/-- The representation that a step asks for. -/
def asks? : Step → Option String
  | .get name | .ensure name => some name
  | .isBuilt _ => none

/-- What a step gives when the representation it asks for is there. -/
def give : Step → Value → Reply
  | .get _, v => .value v
  | _, _ => .done

def on : Step → Cache → Outcome Reply × Cache
  | .get name, c => ((c.get name).1.map .value, (c.get name).2)
  | .ensure name, c => ((c.ensure name).1.map fun _ => .done, (c.ensure name).2)
  | .isBuilt name, c => (.ok (.flag (c.isBuilt name)), c)

variable {t : Step} {name : String}

theorem on_of_asks (h : t.asks? = some name) (c : Cache) :
    t.on c = ((c.get name).1.map t.give, (c.get name).2) := by
  cases t with
  | isBuilt _ => cases h
  | get _ => cases h; rfl
  | ensure _ =>
    cases h
    simp only [on, Cache.ensure]
    cases (c.get name).1 <;> rfl

theorem snd_on_of_not_asks (h : t.asks? = none) (c : Cache) : (t.on c).2 = c := by
  cases t with
  | isBuilt _ => rfl
  | _ => cases h

theorem later_on (t : Step) (c : Cache) : c.Later (t.on c).2 := by
  cases h : t.asks? with
  | none => rw [snd_on_of_not_asks h]; exact .refl c
  | some name => rw [on_of_asks h]; exact c.later_get name

/-- A step changes no slot but the one it asks for, and that one by filling it. -/
theorem slot?_on (t : Step) (c : Cache) (name : String) :
    (t.on c).2.slot? name =
      if t.asks? = some name then (c.slot? name).map fun s => (fill c.raw s).2
      else c.slot? name := by
  cases h : t.asks? with
  | none => simp [snd_on_of_not_asks h]
  | some other => simp [on_of_asks h, slot?_get]

/-- A step makes a name built if it asks for it and does not fail. -/
theorem isBuilt_on (t : Step) (c : Cache) (name : String) :
    (t.on c).2.isBuilt name = true ↔
      c.isBuilt name = true ∨ t.asks? = some name ∧ ∃ r, (t.on c).1 = .ok r := by
  cases h : t.asks? with
  | none => simp [snd_on_of_not_asks h]
  | some other =>
    have hok : (∃ r, (c.get other).1.map t.give = .ok r) ↔ ∃ v, (c.get other).1 = .ok v := by
      cases (c.get other).1 <;> simp [Except.map]
    rw [on_of_asks h, hok, Option.some.injEq]
    exact isBuiltIn_request c.raw other name c.slots

end Step

/-! ### Histories -/

variable (raw : Text.Bytes) (rs : List Representation)

/-- The cache of a document after a history of steps. -/
def run (steps : List Step) : Cache := steps.foldl (fun c t => (t.on c).2) (ofDocument raw rs)

/-- What a step gives after a history. -/
def reply (before : List Step) (t : Step) : Outcome Reply := (t.on (run raw rs before)).1

/-- A step after a history calls the builder of a name, which answers `r`. -/
def Calls (before : List Step) (t : Step) (name : String) (r : Except BuildFault Value) : Prop :=
  ∃ x, (rs.find? fun x => x.name == name) = some x ∧
    (run raw rs (before ++ [t])).callsOf name = (run raw rs before).callsOf name + 1 ∧
    r = x.build ((run raw rs before).callsOf name) raw

/-- At some step of a history, after those before it. -/
def Earlier (P : List Step → Step → Prop) (steps : List Step) : Prop :=
  ∃ before t rest, steps = before ++ t :: rest ∧ P before t

theorem not_earlier_nil {P : List Step → Step → Prop} : ¬ Earlier P [] := by
  rintro ⟨before, t, rest, h, -⟩
  simp at h

theorem earlier_snoc {P : List Step → Step → Prop} {steps : List Step} {t : Step} :
    Earlier P (steps ++ [t]) ↔ P steps t ∨ Earlier P steps := by
  constructor
  · rintro ⟨before, u, rest, h, hp⟩
    rcases List.eq_nil_or_concat rest with rfl | ⟨front, last, rfl⟩
    · obtain ⟨rfl, hu⟩ := List.append_inj' h rfl
      obtain rfl := List.singleton_inj.mp hu
      exact .inl hp
    · rw [List.concat_eq_append, ← List.cons_append, ← List.append_assoc] at h
      obtain ⟨rfl, -⟩ := List.append_inj' h rfl
      exact .inr ⟨before, u, front, rfl, hp⟩
  · rintro (hp | ⟨before, u, rest, rfl, hp⟩)
    · exact ⟨steps, t, [], rfl, hp⟩
    · exact ⟨before, u, rest ++ [t], by simp, hp⟩

variable {raw rs}

theorem run_append (before rest : List Step) :
    run raw rs (before ++ rest) = rest.foldl (fun c t => (t.on c).2) (run raw rs before) :=
  List.foldl_append

theorem run_snoc (before : List Step) (t : Step) :
    run raw rs (before ++ [t]) = (t.on (run raw rs before)).2 := run_append before [t]

theorem over_run (steps : List Step) : (run raw rs steps).Over raw rs := by
  induction steps using List.reverseRecOn with
  | nil => exact over_ofDocument raw rs
  | append_singleton before t ih =>
    rw [run_snoc]
    exact ih.later (t.later_on _)

/-- A step of a history changes no slot but the one it asks for, and that one by filling it. -/
theorem slot?_run_snoc (before : List Step) (t : Step) (name : String) :
    (run raw rs (before ++ [t])).slot? name =
      if t.asks? = some name then ((run raw rs before).slot? name).map fun s => (fill raw s).2
      else (run raw rs before).slot? name := by
  rw [run_snoc, Step.slot?_on, (over_run before).raw]

/-! ### Slots over time -/

theorem fill_of_content {s : Slot} {v : Value} (h : s.content = some v) :
    fill raw s = (.ok v, s) := by
  simp [fill, h]

theorem fill_of_ok {s : Slot} {v : Value} (h : s.content = none)
    (hb : s.representation.build s.calls raw = .ok v) :
    fill raw s = (.ok v, { s with calls := s.calls + 1, content := some v }) := by
  simp [fill, h, hb]

theorem fill_of_error {s : Slot} {f : BuildFault} (h : s.content = none)
    (hb : s.representation.build s.calls raw = .error f) :
    fill raw s = (.error (f.report s.representation.name), { s with calls := s.calls + 1 }) := by
  simp [fill, h, hb]

theorem calls_fill (raw : Text.Bytes) {s : Slot} (h : s.content = none) :
    (fill raw s).2.calls = s.calls + 1 := by
  cases hb : s.representation.build s.calls raw with
  | ok v => rw [fill_of_ok h hb]
  | error f => rw [fill_of_error h hb]

/-- What is built stays. -/
theorem contentOf_run_append {before : List Step} {name : String} {v : Value}
    (h : (run raw rs before).contentOf name = some v) (rest : List Step) :
    (run raw rs (before ++ rest)).contentOf name = some v := by
  induction rest using List.reverseRecOn with
  | nil => rwa [List.append_nil]
  | append_singleton rest t ih =>
    obtain ⟨s, hs, hc⟩ := Option.bind_eq_some_iff.mp ih
    rw [← List.append_assoc, contentOf, slot?_run_snoc, hs]
    split_ifs
    · simp [fill_of_content hc, hc]
    · exact hc

/-- Steps that do not ask for a representation leave its slot alone. -/
theorem slot?_run_append {rest : List Step} {name : String}
    (h : ∀ t ∈ rest, t.asks? ≠ some name) (before : List Step) :
    (run raw rs (before ++ rest)).slot? name = (run raw rs before).slot? name := by
  induction rest generalizing before with
  | nil => rw [List.append_nil]
  | cons t rest ih =>
    obtain ⟨ht, hrest⟩ := List.forall_mem_cons.mp h
    rw [List.append_cons, ih hrest, slot?_run_snoc, if_neg ht]

/-- A builder is called by a step that asks for it and finds its slot empty. -/
theorem calls_iff {before : List Step} {t : Step} {name : String} {r : Except BuildFault Value} :
    Calls raw rs before t name r ↔
      t.asks? = some name ∧ ∃ s, (run raw rs before).slot? name = some s ∧ s.content = none ∧
        r = s.representation.build s.calls raw := by
  have hover : (run raw rs before).Over raw rs := over_run before
  rw [Calls, callsOf, callsOf, slot?_run_snoc, ← hover.map_slot? name]
  cases hs : (run raw rs before).slot? name with
  | none => simp
  | some s =>
    by_cases ha : t.asks? = some name
    · cases hc : s.content with
      | none => simp [ha, hc, calls_fill raw hc]
      | some v => simp [ha, hc, fill_of_content hc]
    · simp [ha]

theorem contentOf_of_calls {before : List Step} {t : Step} {name : String} {v : Value}
    (h : Calls raw rs before t name (.ok v)) :
    (run raw rs (before ++ [t])).contentOf name = some v := by
  obtain ⟨ha, s, hs, hc, hb⟩ := calls_iff.mp h
  rw [contentOf, slot?_run_snoc, if_pos ha, hs]
  simp [fill_of_ok hc hb.symm]

theorem contentOf_of_earlier {steps : List Step} {name : String} {v : Value}
    (h : Earlier (fun before t => Calls raw rs before t name (.ok v)) steps) :
    (run raw rs steps).contentOf name = some v := by
  obtain ⟨before, t, rest, rfl, hcalls⟩ := h
  rw [List.append_cons]
  exact contentOf_run_append (contentOf_of_calls hcalls) rest

/-- A call that fails is counted, and changes nothing else in its slot. -/
theorem slot?_of_failed {before : List Step} {t : Step} {name : String} {f : BuildFault}
    (h : Calls raw rs before t name (.error f)) :
    ∃ s, (run raw rs before).slot? name = some s ∧ s.content = none ∧
      (run raw rs (before ++ [t])).slot? name = some { s with calls := s.calls + 1 } := by
  obtain ⟨ha, s, hs, hc, hb⟩ := calls_iff.mp h
  refine ⟨s, hs, hc, ?_⟩
  rw [slot?_run_snoc, if_pos ha, hs, Option.map_some, fill_of_error hc hb.symm]

theorem contentOf_of_failed {before : List Step} {t : Step} {name : String} {f : BuildFault}
    (h : Calls raw rs before t name (.error f)) (other : String) :
    (run raw rs (before ++ [t])).contentOf other = (run raw rs before).contentOf other := by
  by_cases ho : t.asks? = some other
  · obtain rfl : name = other := Option.some.inj ((calls_iff.mp h).1.symm.trans ho)
    obtain ⟨s, hs, -, hafter⟩ := slot?_of_failed h
    rw [contentOf, contentOf, hafter, hs]
    rfl
  · rw [contentOf, contentOf, slot?_run_snoc, if_neg ho]

/-- After a call that fails, the next step that asks for the representation calls again. -/
theorem calls_of_failed {before between : List Step} {t u : Step} {name : String} {f : BuildFault}
    (h : Calls raw rs before t name (.error f)) (hno : ∀ w ∈ between, w.asks? ≠ some name)
    (hu : u.asks? = some name) : ∃ r, Calls raw rs (before ++ t :: between) u name r := by
  obtain ⟨s, -, hc, hafter⟩ := slot?_of_failed h
  have hslot : (run raw rs (before ++ t :: between)).slot? name =
      some { s with calls := s.calls + 1 } := by
    rw [List.append_cons, slot?_run_append hno, hafter]
  exact ⟨_, calls_iff.mpr ⟨hu, _, hslot, hc, rfl⟩⟩

/-- Only a step that asks for a representation and finds it missing changes the number of calls. -/
theorem calls_of_ne {before : List Step} {t : Step} {name : String}
    (h : (run raw rs (before ++ [t])).callsOf name ≠ (run raw rs before).callsOf name) :
    t.asks? = some name ∧ ∃ r, Calls raw rs before t name r := by
  rw [callsOf, callsOf, slot?_run_snoc] at h
  by_cases ha : t.asks? = some name
  · rw [if_pos ha] at h
    refine ⟨ha, ?_⟩
    cases hs : (run raw rs before).slot? name with
    | none => simp [hs] at h
    | some s =>
      cases hc : s.content with
      | none => exact ⟨_, calls_iff.mpr ⟨ha, s, hs, hc, rfl⟩⟩
      | some v => simp [hs, fill_of_content hc] at h
  · exact absurd (by rw [if_neg ha]) h

theorem callsOf_of_content {before : List Step} {name : String} {v : Value}
    (h : (run raw rs before).contentOf name = some v) (t : Step) :
    (run raw rs (before ++ [t])).callsOf name = (run raw rs before).callsOf name := by
  by_contra hne
  obtain ⟨-, r, hcalls⟩ := calls_of_ne hne
  obtain ⟨-, s, hs, hc, -⟩ := calls_iff.mp hcalls
  rw [contentOf, hs, Option.bind_some, hc] at h
  cases h

/-! ### Replies over time -/

/-- A step that asks for a representation gives what its slot answers. -/
theorem reply_of_asks {before : List Step} {t : Step} {name : String} (h : t.asks? = some name) :
    reply raw rs before t = (answerOf raw name ((run raw rs before).slot? name)).map t.give := by
  rw [reply, Step.on_of_asks h, fst_get, (over_run before).raw]

theorem reply_of_content {before : List Step} {t : Step} {name : String} {v : Value}
    (h : t.asks? = some name) (hv : (run raw rs before).contentOf name = some v) :
    reply raw rs before t = .ok (t.give v) := by
  obtain ⟨s, hs, hc⟩ := Option.bind_eq_some_iff.mp hv
  rw [reply_of_asks h, hs, answerOf, fill_of_content hc]
  rfl

theorem reply_of_built {before : List Step} {t : Step} {name : String} {v : Value}
    (h : Calls raw rs before t name (.ok v)) : reply raw rs before t = .ok (t.give v) := by
  obtain ⟨ha, s, hs, hc, hb⟩ := calls_iff.mp h
  rw [reply_of_asks ha, hs, answerOf, fill_of_ok hc hb.symm]
  rfl

theorem reply_of_failed {before : List Step} {t : Step} {name : String} {f : BuildFault}
    (h : Calls raw rs before t name (.error f)) :
    reply raw rs before t = .error (f.report name) := by
  obtain ⟨ha, s, hs, hc, hb⟩ := calls_iff.mp h
  have hname : s.representation.name = name := by simpa using List.find?_some hs
  rw [reply_of_asks ha, hs, answerOf, fill_of_error hc hb.symm, hname]
  rfl

theorem isBuilt_run (steps : List Step) (name : String) :
    (run raw rs steps).isBuilt name = true ↔
      Earlier (fun before t => t.asks? = some name ∧ ∃ r, reply raw rs before t = .ok r) steps := by
  induction steps using List.reverseRecOn with
  | nil => simp [not_earlier_nil, run, ofDocument, isBuilt, isBuiltIn, Slot.empty]
  | append_singleton before t ih =>
    rw [run_snoc, Step.isBuilt_on, ih, earlier_snoc, or_comm]
    rfl

theorem slot?_of_unknown {name : String} (h : ∀ x ∈ rs, x.name ≠ name) (steps : List Step) :
    (run raw rs steps).slot? name = none := by
  have hover : (run raw rs steps).Over raw rs := over_run steps
  have hslot := hover.map_slot? name
  rw [List.find?_eq_none.mpr (by simpa using h)] at hslot
  simpa using hslot

theorem names_of_slot?_none {c : Cache} {name : String} (h : c.slot? name = none) :
    ∀ s ∈ c.slots, s.representation.name ≠ name := by
  simpa using List.find?_eq_none.mp h

theorem isBuilt_of_none {c : Cache} {name : String} (h : c.slot? name = none) :
    c.isBuilt name = false := by
  simp only [isBuilt, isBuiltIn, List.any_eq_false, Bool.and_eq_true, beq_iff_eq]
  exact fun s hs hn => names_of_slot?_none h s hs hn.1

/-- A request for a name without a slot changes nothing. -/
theorem snd_get_of_none {c : Cache} {name : String} (h : c.slot? name = none) :
    (c.get name).2 = c := by
  have hslots : ∀ slots : List Slot, (∀ s ∈ slots, s.representation.name ≠ name) →
      (request c.raw name slots).2 = slots := by
    intro slots hno
    induction slots with
    | nil => rfl
    | cons s rest ih =>
      obtain ⟨hs, hrest⟩ := List.forall_mem_cons.mp hno
      simp [request, hs, ih hrest]
  simp only [Cache.get, hslots c.slots (names_of_slot?_none h)]

/-! ### The law of histories -/

variable (raw rs) in
/-- What a step after a history does. -/
structure Lawful (before : List Step) (t : Step) : Prop where
  /-- A step calls no builder but that of the registered representation it asks for, and that one
  once at most. -/
  calls : ∀ name, (run raw rs (before ++ [t])).callsOf name ≠ (run raw rs before).callsOf name →
    t.asks? = some name ∧ ∃ r, Calls raw rs before t name r
  /-- What a called builder gives is what the step gives. -/
  succeeds : ∀ name v, Calls raw rs before t name (.ok v) →
    reply raw rs before t = .ok (t.give v)
  /-- A builder that has succeeded is not called again, and every `get` gives what it built. -/
  settled : ∀ name v, Earlier (fun a u => Calls raw rs a u name (.ok v)) before →
    (run raw rs (before ++ [t])).callsOf name = (run raw rs before).callsOf name ∧
      (t.asks? = some name → reply raw rs before t = .ok (t.give v))
  /-- A builder that fails changes nothing that is built. Faults with the document are reported under
  the name of the representation, other failures as they are. -/
  fails : ∀ name f, Calls raw rs before t name (.error f) →
    (∀ other, (run raw rs (before ++ [t])).contentOf other = (run raw rs before).contentOf other) ∧
      reply raw rs before t =
        match f with
        | .badValue reason | .wrongKind reason | .tooDeep reason =>
          .error (.fault (.representation name reason))
        | .other failure => .error failure
  /-- After a failure the next step that asks for the representation calls its builder again. -/
  retries : ∀ name f, Calls raw rs before t name (.error f) →
    ∀ between u, (∀ w ∈ between, w.asks? ≠ some name) → u.asks? = some name →
      ∃ r, Calls raw rs (before ++ t :: between) u name r
  /-- A representation is built if an earlier step asked for it and did not fail. -/
  built : ∀ name, reply raw rs before (.isBuilt name) = .ok (.flag true) ↔
    Earlier (fun a u => u.asks? = some name ∧ ∃ r, reply raw rs a u = .ok r) before
  /-- A name that is not registered is never built, and a request for it touches nothing. -/
  unknown : ∀ name, (∀ x ∈ rs, x.name ≠ name) →
    reply raw rs before (.isBuilt name) = .ok (.flag false) ∧
      (t.asks? = some name → run raw rs (before ++ [t]) = run raw rs before ∧
        reply raw rs before t =
          .error (.fault (.representation name "unknown representation")))

/-- Every step after every history is lawful, however its builders answer from call to call. -/
theorem history_lawful (raw : Text.Bytes) (rs : List Representation) (before : List Step)
    (t : Step) : Lawful raw rs before t where
  calls _ hne := calls_of_ne hne
  succeeds _ _ h := reply_of_built h
  settled name v h := by
    have hcontent := contentOf_of_earlier h
    exact ⟨callsOf_of_content hcontent t, fun ha => reply_of_content ha hcontent⟩
  fails name f h := by
    refine ⟨contentOf_of_failed h, ?_⟩
    rw [reply_of_failed h]
    cases f <;> rfl
  retries _ _ h _ _ hno hu := calls_of_failed h hno hu
  built name := by
    rw [← isBuilt_run]
    simp [reply, Step.on]
  unknown name hno := by
    have hslot : (run raw rs before).slot? name = none := slot?_of_unknown hno before
    refine ⟨?flag, fun ha => ⟨?same, ?fault⟩⟩
    case flag => simp [reply, Step.on, isBuilt_of_none hslot]
    case same => rw [run_snoc, Step.on_of_asks ha, snd_get_of_none hslot]
    case fault =>
      rw [reply_of_asks ha, hslot]
      rfl

/-- A builder that fails when it is called first and then gives null, which is kept like any value. -/
example :
    let flaky : Representation :=
      ⟨"flaky", fun n _ => if n = 0 then .error (.badValue "not yet") else .ok .null⟩
    (run [] [flaky] [.get "flaky", .ensure "flaky", .get "flaky"]).callsOf "flaky" = 2 := by
  decide

end Reshape.Cache
