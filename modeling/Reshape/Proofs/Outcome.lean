import Mathlib.Data.List.Forall2
import Reshape.Fault

/-! Outcomes of one computation after another. A row of computations succeeds if each one does, and
fails with the first failure. Rows that agree, in whatever order, have matching results. A computation
may be kept by another one, but for failures that do not matter. -/

namespace Reshape

/-- What is wrong with the first thing of a list that anything is wrong with. -/
inductive First {α β : Type} (P : α → β → Prop) : List α → β → Prop
  | here {a : α} {l : List α} {b : β} : P a b → First P (a :: l) b
  | later {a : α} {l : List α} {b : β} : (∀ c, ¬ P a c) → First P l b → First P (a :: l) b

namespace First

variable {α β γ : Type} {P : α → β → Prop}

@[simp] theorem not_nil {b : β} : ¬ First P [] b := by
  intro h
  cases h

theorem cons_iff {a : α} {l : List α} {b : β} :
    First P (a :: l) b ↔ P a b ∨ (∀ c, ¬ P a c) ∧ First P l b := by
  constructor
  · intro h
    cases h with
    | here h => exact .inl h
    | later ha h => exact .inr ⟨ha, h⟩
  · rintro (h | ⟨ha, h⟩)
    · exact .here h
    · exact .later ha h

theorem append_iff {l m : List α} {b : β} :
    First P (l ++ m) b ↔ First P l b ∨ (∀ a ∈ l, ∀ c, ¬ P a c) ∧ First P m b := by
  induction l with
  | nil => simp
  | cons a l ih =>
    rw [List.cons_append, cons_iff, cons_iff, ih, List.forall_mem_cons]
    tauto

/-- There is a first one if there is one at all. -/
theorem exists_iff {l : List α} : (∃ b, First P l b) ↔ ∃ a ∈ l, ∃ b, P a b := by
  induction l with
  | nil => simp
  | cons a l ih =>
    simp only [cons_iff, exists_or, exists_and_left, ih, List.exists_mem_cons_iff]
    by_cases ha : ∃ b, P a b
    · simp [ha]
    · simp [not_exists.mp ha]

theorem exists_mem {l : List α} {b : β} (h : First P l b) : ∃ a ∈ l, P a b := by
  induction h with
  | here h => exact ⟨_, List.mem_cons_self, h⟩
  | later _ _ ih =>
    obtain ⟨a, ha, h⟩ := ih
    exact ⟨a, List.mem_cons_of_mem _ ha, h⟩

/-- Nothing is wrong with what stands before the first one. -/
theorem split_iff {l : List α} {b : β} :
    First P l b ↔
      ∃ before a rest, l = before ++ a :: rest ∧ (∀ c ∈ before, ∀ d, ¬ P c d) ∧ P a b := by
  constructor
  · intro h
    induction h with
    | here h => exact ⟨[], _, _, rfl, by simp, h⟩
    | later ha _ ih =>
      obtain ⟨before, a, rest, rfl, hbefore, h⟩ := ih
      exact ⟨_ :: before, a, rest, rfl, List.forall_mem_cons.mpr ⟨ha, hbefore⟩, h⟩
  · rintro ⟨before, a, rest, rfl, hbefore, h⟩
    exact append_iff.mpr (.inr ⟨hbefore, .here h⟩)

theorem unique (hP : ∀ a b c, P a b → P a c → b = c) {l : List α} {b c : β} (hb : First P l b)
    (hc : First P l c) : b = c := by
  induction hb with
  | here hb =>
    cases hc with
    | here hc => exact hP _ _ _ hb hc
    | later hno _ => exact absurd hb (hno _)
  | later hno _ ih =>
    cases hc with
    | here hc => exact absurd hc (hno _)
    | later _ hc => exact ih hc

theorem forall_not_iff {l : List α} : (∀ b, ¬ First P l b) ↔ ∀ a ∈ l, ∀ b, ¬ P a b := by
  rw [← not_exists, exists_iff]
  push Not
  rfl

@[simp] theorem singleton_iff {a : α} {b : β} : First P [a] b ↔ P a b := by
  simp [cons_iff]

theorem map_iff {f : γ → α} {l : List γ} {b : β} :
    First P (l.map f) b ↔ First (fun c => P (f c)) l b := by
  induction l with
  | nil => simp
  | cons c l ih => rw [List.map_cons, cons_iff, cons_iff, ih]

theorem flatMap_iff {f : γ → List α} {l : List γ} {b : β} :
    First P (l.flatMap f) b ↔ First (fun c => First P (f c)) l b := by
  induction l with
  | nil => simp
  | cons c l ih =>
    rw [List.flatMap_cons, append_iff, cons_iff, ih, forall_not_iff]

theorem congr_iff {Q : α → β → Prop} {l : List α} (h : ∀ a ∈ l, ∀ b, P a b ↔ Q a b) {b : β} :
    First P l b ↔ First Q l b := by
  induction l with
  | nil => simp
  | cons a l ih =>
    obtain ⟨ha, hl⟩ := List.forall_mem_cons.mp h
    rw [cons_iff, cons_iff, ih hl]
    simp only [ha]

end First

/-! ### Options and lists that correspond -/

section Corresponding

variable {α β γ δ : Type} {R : α → β → Prop}

theorem rel_some_left {a : α} {p : Option β} (h : Option.Rel R (some a) p) :
    ∃ b, p = some b ∧ R a b := by
  cases h with
  | some h => exact ⟨_, rfl, h⟩

theorem rel_some_right {o : Option α} {b : β} (h : Option.Rel R o (some b)) :
    ∃ a, o = some a ∧ R a b := by
  cases h with
  | some h => exact ⟨_, rfl, h⟩

theorem rel_none_iff {o : Option α} {p : Option β} (h : Option.Rel R o p) : o = none ↔ p = none := by
  cases h <;> simp

/-- Everything in either list is related to something in the other. -/
structure Matched (R : α → β → Prop) (l : List α) (m : List β) : Prop where
  left : ∀ a ∈ l, ∃ b ∈ m, R a b
  right : ∀ b ∈ m, ∃ a ∈ l, R a b

namespace Matched

variable {l : List α} {m : List β}

theorem imp {S : α → β → Prop} (h : Matched R l m) (hRS : ∀ a ∈ l, ∀ b ∈ m, R a b → S a b) :
    Matched S l m :=
  ⟨fun a ha => (h.left a ha).imp fun b hb => ⟨hb.1, hRS a ha b hb.1 hb.2⟩,
    fun b hb => (h.right b hb).imp fun a ha => ⟨ha.1, hRS a ha.1 b hb ha.2⟩⟩

theorem nil_iff (h : Matched R l m) : l = [] ↔ m = [] := by
  constructor
  · rintro rfl
    refine List.eq_nil_iff_forall_not_mem.mpr fun b hb => ?_
    obtain ⟨a, ha, -⟩ := h.right b hb
    cases ha
  · rintro rfl
    refine List.eq_nil_iff_forall_not_mem.mpr fun a ha => ?_
    obtain ⟨b, hb, -⟩ := h.left a ha
    cases hb

/-- Options of related things that are both there or both absent. -/
theorem filterMap {S : γ → δ → Prop} (h : Matched R l m) {f : α → Option γ} {g : β → Option δ}
    (hfg : ∀ a b, R a b → Option.Rel S (f a) (g b)) :
    Matched S (l.filterMap f) (m.filterMap g) := by
  constructor
  · intro c hc
    obtain ⟨a, ha, hf⟩ := List.mem_filterMap.mp hc
    obtain ⟨b, hb, hab⟩ := h.left a ha
    obtain ⟨d, hg, hcd⟩ := rel_some_left (hf ▸ hfg a b hab)
    exact ⟨d, List.mem_filterMap.mpr ⟨b, hb, hg⟩, hcd⟩
  · intro d hd
    obtain ⟨b, hb, hg⟩ := List.mem_filterMap.mp hd
    obtain ⟨a, ha, hab⟩ := h.right b hb
    obtain ⟨c, hf, hcd⟩ := rel_some_right (hg ▸ hfg a b hab)
    exact ⟨c, List.mem_filterMap.mpr ⟨a, ha, hf⟩, hcd⟩

end Matched

end Corresponding

end Reshape

namespace Except

variable {ε α β : Type}

@[simp] theorem ok_bind (a : α) (f : α → Except ε β) : (Except.ok a >>= f) = f a := rfl

@[simp] theorem error_bind (e : ε) (f : α → Except ε β) : (Except.error e >>= f) = .error e := rfl

/-- Two computations in a row succeed exactly if each one does. -/
theorem bind_eq_ok {x : Except ε α} {f : α → Except ε β} {b : β} :
    (x >>= f) = .ok b ↔ ∃ a, x = .ok a ∧ f a = .ok b := by
  cases x <;> simp

/-- The second computation fails where the first one does not. -/
theorem bind_eq_error_iff {x : Except ε α} {f : α → Except ε β} {P : ε → Prop} {Q : Prop} {e : ε}
    (hx : ∀ c, x = .error c ↔ P c) (hf : ∀ a, x = .ok a → (f a = .error e ↔ Q)) :
    (x >>= f) = .error e ↔ P e ∨ (∀ c, ¬ P c) ∧ Q := by
  cases x with
  | error e' =>
    have hP : ¬ ∀ c, ¬ P c := fun h => h e' ((hx e').mp rfl)
    rw [← hx e]
    simp [hP]
  | ok a =>
    have hP : ∀ c, ¬ P c := fun c hc => by simpa using (hx c).mpr hc
    rw [ok_bind, hf a rfl]
    simp [hP]

theorem bind_ne_error {x : Except ε α} {f : α → Except ε β} {e : ε} (hx : x ≠ .error e)
    (hf : ∀ a, f a ≠ .error e) : (x >>= f) ≠ .error e := by
  cases x with
  | error e' => exact fun h => hx (congrArg _ (Except.error.inj h))
  | ok a => exact hf a

theorem map_eq_error {x : Except ε α} {f : α → β} {e : ε} :
    x.map f = .error e ↔ x = .error e := by
  cases x <;> simp [Except.map]

theorem mapError_eq_ok {ε' : Type} {x : Except ε α} {f : ε → ε'} {a : α} :
    x.mapError f = .ok a ↔ x = .ok a := by
  cases x <;> simp [Except.mapError]

theorem map_map {γ : Type} (x : Except ε α) (f : α → β) (g : β → γ) :
    (x.map f).map g = x.map fun a => g (f a) := by
  cases x <;> rfl

/-- Both fail, or both succeed with related results. -/
inductive Agrees (R : α → β → Prop) : Except ε α → Except ε β → Prop
  | error (e f : ε) : Agrees R (.error e) (.error f)
  | ok {a : α} {b : β} : R a b → Agrees R (.ok a) (.ok b)

namespace Agrees

variable {γ δ : Type} {R : α → β → Prop} {S : γ → δ → Prop} {x : Except ε α} {y : Except ε β}

theorem of_eq {x : Except ε α} {R : α → α → Prop} (hR : ∀ a, R a a) : Agrees R x x := by
  cases x with
  | error e => exact .error e e
  | ok a => exact .ok (hR a)

theorem bind (h : Agrees R x y) {f : α → Except ε γ} {g : β → Except ε δ}
    (hfg : ∀ a b, x = .ok a → y = .ok b → R a b → Agrees S (f a) (g b)) :
    Agrees S (x >>= f) (y >>= g) := by
  cases h with
  | error e f => exact .error e f
  | ok hab => exact hfg _ _ rfl rfl hab

theorem bind_same (z : Except ε α) {f : α → Except ε γ} {g : α → Except ε δ}
    (hfg : ∀ a, Agrees S (f a) (g a)) : Agrees S (z >>= f) (z >>= g) := by
  cases z with
  | error e => exact .error e e
  | ok a => exact hfg a

theorem map (h : Agrees R x y) {f : α → γ} {g : β → δ}
    (hfg : ∀ a b, x = .ok a → y = .ok b → R a b → S (f a) (g b)) :
    Agrees S (x.map f) (y.map g) := by
  cases h with
  | error e f => exact .error e f
  | ok hab => exact .ok (hfg _ _ rfl rfl hab)

theorem ok_iff (h : Agrees R x y) : (∃ a, x = .ok a) ↔ ∃ b, y = .ok b := by
  cases h <;> simp

theorem rel (h : Agrees R x y) {a : α} {b : β} (hx : x = .ok a) (hy : y = .ok b) : R a b := by
  subst hx hy
  cases h with
  | ok hab => exact hab

end Agrees

/-- Both fail with related failures, or both succeed with related results. -/
inductive Mirrors (E : ε → ε → Prop) (R : α → β → Prop) : Except ε α → Except ε β → Prop
  | error {e f : ε} : E e f → Mirrors E R (.error e) (.error f)
  | ok {a : α} {b : β} : R a b → Mirrors E R (.ok a) (.ok b)

namespace Mirrors

variable {γ δ : Type} {E : ε → ε → Prop} {R : α → β → Prop} {S : γ → δ → Prop}
  {x : Except ε α} {y : Except ε β}

theorem bind (h : Mirrors E R x y) {f : α → Except ε γ} {g : β → Except ε δ}
    (hfg : ∀ a b, R a b → Mirrors E S (f a) (g b)) : Mirrors E S (x >>= f) (y >>= g) := by
  cases h with
  | error hef => exact .error hef
  | ok hab => exact hfg _ _ hab

theorem map (h : Mirrors E R x y) {f : α → γ} {g : β → δ} (hfg : ∀ a b, R a b → S (f a) (g b)) :
    Mirrors E S (x.map f) (y.map g) := by
  cases h with
  | error hef => exact .error hef
  | ok hab => exact .ok (hfg _ _ hab)

theorem mapM {f : γ → Except ε α} {g : γ → Except ε β} {l : List γ}
    (h : ∀ c ∈ l, Mirrors E R (f c) (g c)) : Mirrors E (List.Forall₂ R) (l.mapM f) (l.mapM g) := by
  induction l with
  | nil => exact .ok .nil
  | cons c l ih =>
    obtain ⟨hc, hl⟩ := List.forall_mem_cons.mp h
    rw [List.mapM_cons, List.mapM_cons]
    exact hc.bind fun a b hab => (ih hl).bind fun as bs habs => .ok (.cons hab habs)

end Mirrors

/-- The second computation does what the first one does, but that only failures of a kind are kept. -/
def Keeps (P : ε → Prop) : Except ε α → Except ε α → Prop
  | .ok a, y => y = .ok a
  | .error e, y => P e → y = .error e

namespace Keeps

variable {P : ε → Prop}

theorem refl (x : Except ε α) : Keeps P x x := by
  cases x with
  | error e => exact fun _ => rfl
  | ok a => exact rfl

theorem bind {x y : Except ε α} (h : Keeps P x y) {f g : α → Except ε β}
    (hfg : ∀ a, x = .ok a → Keeps P (f a) (g a)) : Keeps P (x >>= f) (y >>= g) := by
  cases x with
  | error e =>
    intro he
    rw [h he]
    rfl
  | ok a =>
    obtain rfl : y = .ok a := h
    exact hfg a rfl

theorem map {x y : Except ε α} (h : Keeps P x y) (f : α → β) : Keeps P (x.map f) (y.map f) := by
  cases x with
  | error e =>
    intro he
    rw [h he]
    rfl
  | ok a =>
    obtain rfl : y = .ok a := h
    exact rfl

theorem mapM {f g : α → Except ε β} {l : List α} (h : ∀ a ∈ l, Keeps P (f a) (g a)) :
    Keeps P (l.mapM f) (l.mapM g) := by
  induction l with
  | nil => exact refl _
  | cons a l ih =>
    obtain ⟨ha, hl⟩ := List.forall_mem_cons.mp h
    rw [List.mapM_cons, List.mapM_cons]
    exact ha.bind fun b _ => (ih hl).bind fun bs _ => refl _

theorem eq_ok {x y : Except ε α} (h : Keeps P x y) {a : α} (hx : x = .ok a) : y = .ok a := by
  subst hx
  exact h

/-- Where failures of every kind are kept, nothing changes. -/
theorem eq {x y : Except ε α} (h : Keeps P x y) (hP : ∀ e, P e) : y = x := by
  cases x with
  | error e => exact h (hP e)
  | ok a => exact h

end Keeps

/-- A computation that succeeds with a `P`, or fails with a `Q`. -/
def Ends (P : α → Prop) (Q : ε → Prop) : Except ε α → Prop
  | .ok a => P a
  | .error e => Q e

namespace Ends

variable {P : α → Prop} {Q : ε → Prop} {R : β → Prop} {x : Except ε α}

theorem bind (h : Ends P Q x) {f : α → Except ε β} (hf : ∀ a, P a → Ends R Q (f a)) :
    Ends R Q (x >>= f) := by
  cases x with
  | error e => exact h
  | ok a => exact hf a h

theorem map (h : Ends P Q x) {f : α → β} (hf : ∀ a, P a → R (f a)) : Ends R Q (f <$> x) := by
  cases x with
  | error e => exact h
  | ok a => exact hf a h

theorem mono {P' : α → Prop} {Q' : ε → Prop} (h : Ends P Q x) (hP : ∀ a, P a → P' a)
    (hQ : ∀ e, Q e → Q' e) : Ends P' Q' x := by
  cases x with
  | error e => exact hQ e h
  | ok a => exact hP a h

end Ends

/-! ### Rows -/

theorem mapM_eq_ok {f : α → Except ε β} {l : List α} {bs : List β} :
    l.mapM f = .ok bs ↔ List.Forall₂ (fun a b => f a = .ok b) l bs := by
  induction l generalizing bs with
  | nil => simp [pure, Except.pure, eq_comm]
  | cons a l ih =>
    rw [List.mapM_cons, bind_eq_ok]
    simp only [bind_eq_ok, ih, List.forall₂_cons_left_iff]
    constructor
    · rintro ⟨b, hb, cs, hcs, h⟩
      obtain rfl := Except.ok.inj h
      exact ⟨b, cs, hb, hcs, rfl⟩
    · rintro ⟨b, cs, hb, hcs, rfl⟩
      exact ⟨b, hb, cs, hcs, rfl⟩

/-- A row fails with its first failure; what comes later is not reached. -/
theorem mapM_eq_error {f : α → Except ε β} {l : List α} {e : ε} :
    l.mapM f = .error e ↔ Reshape.First (fun a e => f a = .error e) l e := by
  induction l with
  | nil => simp [pure, Except.pure]
  | cons a l ih =>
    rw [List.mapM_cons, Reshape.First.cons_iff]
    refine bind_eq_error_iff (fun _ => Iff.rfl) fun b _ => ?_
    rw [← ih]
    cases l.mapM f <;> simp [pure, Except.pure]

theorem mapM_ok_iff {f : α → Except ε β} {l : List α} :
    (∃ bs, l.mapM f = .ok bs) ↔ ∀ a ∈ l, ∃ b, f a = .ok b := by
  induction l with
  | nil => simp [pure, Except.pure]
  | cons a l ih =>
    rw [List.forall_mem_cons, ← ih, List.mapM_cons]
    cases f a with
    | error e => simp
    | ok b => cases l.mapM f <;> simp [pure, Except.pure]

theorem mem_of_mapM {f : α → Except ε β} {l : List α} {bs : List β} (h : l.mapM f = .ok bs) {b : β} :
    b ∈ bs ↔ ∃ a ∈ l, f a = .ok b := by
  have hrow := mapM_eq_ok.mp h
  clear h
  induction hrow with
  | nil => simp
  | cons hab _ ih => simp [hab, ih, eq_comm]

/-- Rows of computations that agree have matching results, in whatever order they stand. -/
theorem mapM_matched {γ δ : Type} {S : γ → δ → Prop} {f : α → Except ε γ} {g : β → Except ε δ}
    {l : List α} {m : List β} (h : Reshape.Matched (fun a b => Agrees S (f a) (g b)) l m) :
    Agrees (Reshape.Matched S) (l.mapM f) (m.mapM g) := by
  have hok : (∃ cs, l.mapM f = .ok cs) ↔ ∃ ds, m.mapM g = .ok ds := by
    rw [mapM_ok_iff, mapM_ok_iff]
    constructor
    · intro hf b hb
      obtain ⟨a, ha, hab⟩ := h.right b hb
      exact hab.ok_iff.mp (hf a ha)
    · intro hg a ha
      obtain ⟨b, hb, hab⟩ := h.left a ha
      exact hab.ok_iff.mpr (hg b hb)
  rcases hf : l.mapM f with e | cs <;> rcases hg : m.mapM g with e' | ds
  · exact .error e e'
  · simp [hf, hg] at hok
  · simp [hf, hg] at hok
  · refine .ok ⟨fun c hc => ?_, fun d hd => ?_⟩
    · obtain ⟨a, ha, hfa⟩ := (mem_of_mapM hf).mp hc
      obtain ⟨b, hb, hab⟩ := h.left a ha
      obtain ⟨d, hgb⟩ := hab.ok_iff.mp ⟨c, hfa⟩
      exact ⟨d, (mem_of_mapM hg).mpr ⟨b, hb, hgb⟩, hab.rel hfa hgb⟩
    · obtain ⟨b, hb, hgb⟩ := (mem_of_mapM hg).mp hd
      obtain ⟨a, ha, hab⟩ := h.right b hb
      obtain ⟨c, hfa⟩ := hab.ok_iff.mpr ⟨d, hgb⟩
      exact ⟨c, (mem_of_mapM hf).mpr ⟨a, ha, hfa⟩, hab.rel hfa hgb⟩

end Except
