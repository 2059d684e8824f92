import Reshape.Proofs.Outcome
import Reshape.Schema.Findings

/-! Findings without violations, and which findings are reported. -/

namespace Reshape.Schema

/-! ### Choice -/

theorem candidates_eq_nil {vs : List Violation} (h : candidates vs = .ok []) : vs = [] := by
  cases vs with
  | nil => rfl
  | cons v rest =>
    rw [candidates] at h
    obtain ⟨relevance, -, h⟩ := Except.bind_eq_ok.mp h
    obtain ⟨others, -, h⟩ := Except.bind_eq_ok.mp h
    cases h

theorem mostRelevant_eq_none {cs : List Candidate} (h : mostRelevant cs = none) : cs = [] := by
  cases cs with
  | nil => rfl
  | cons c rest =>
    rw [mostRelevant] at h
    split at h
    · cases h
    · split_ifs at h

namespace Findings

variable {f : Findings}

/-! ### Nothing found -/

theorem isClean_eq_true : f.isClean = .ok true ↔ f = none := by
  rcases f with ⟨_ | ⟨v, vs⟩, _ | c⟩ <;> simp [isClean, none]

theorem ofResult_eq_none {r : Except Crash Findings} : ofResult r = none ↔ r = .ok none := by
  cases r <;> simp [ofResult, stopped, none]

theorem under_eq_none {step : Step} : f.under step = none ↔ f = none := by
  rcases f with ⟨_ | ⟨v, vs⟩, c⟩ <;> simp [under, none]

theorem isFinal_none (brief : Bool) : none.isFinal brief = false := by
  simp [isFinal, none]

theorem none_append : none ++ f = f := rfl

theorem append_eq_none {g : Findings} (h : f ++ g = none) : f = none ∧ g = none := by
  change f.append g = none at h
  unfold append at h
  rcases f with ⟨vs, _ | c⟩ <;> rcases g with ⟨ws, d⟩ <;> simp_all [none]

/-- Nothing is found in parts if nothing is found in any of them. -/
theorem forEach_eq_none {α : Type} {brief : Bool} {find : α → Except Crash Findings} {l : List α} :
    forEach brief find l = none ↔ ∀ x ∈ l, find x = .ok none := by
  induction l with
  | nil => simp [forEach]
  | cons x rest ih =>
    rw [List.forall_mem_cons, ← ih, ← ofResult_eq_none, forEach]
    constructor
    · intro h
      split_ifs at h with hfinal
      · rw [h, isFinal_none] at hfinal
        cases hfinal
      · exact append_eq_none h
    · rintro ⟨hx, hrest⟩
      simp only [hx, isFinal_none, none_append, hrest, Bool.false_eq_true, if_false]

/-! ### Reports -/

/-- Nothing is reported if nothing is found. -/
theorem report_eq_none : f.report = .ok .none ↔ f = none := by
  constructor
  · intro h
    obtain ⟨cs, hcs, h⟩ := Except.bind_eq_ok.mp h
    rcases f with ⟨vs, _ | c⟩
    · cases hm : mostRelevant cs with
      | none =>
        obtain rfl := mostRelevant_eq_none hm
        obtain rfl := candidates_eq_nil hcs
        rfl
      | some c =>
        simp only [hm] at h
        obtain ⟨r, -, h⟩ := Except.bind_eq_ok.mp h
        cases h
    · cases h
  · rintro rfl
    rfl

/-- What is reported has been found. -/
theorem violations_of_report {r : Report} (h : f.report = .ok (some r)) :
    f.crash = .none ∧ f.violations ≠ [] := by
  obtain ⟨cs, hcs, hrest⟩ := Except.bind_eq_ok.mp h
  rcases f with ⟨vs, _ | c⟩
  · refine ⟨rfl, ?_⟩
    rintro rfl
    obtain rfl := Except.ok.inj hcs
    cases hrest
  · cases hrest

end Findings

end Reshape.Schema
