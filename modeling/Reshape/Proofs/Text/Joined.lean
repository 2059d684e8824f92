import Mathlib.Data.List.Basic
import Mathlib.Data.String.Basic

/-! Words with a sign between them. -/

namespace Reshape.Text

variable {sep : String} {c : Char}

theorem toList_intercalate_cons (hsep : sep.toList = [c]) (w : String) (ws : List String) :
    (sep.intercalate (w :: ws)).toList = w.toList ++ ws.flatMap fun x => c :: x.toList := by
  rw [String.toList_intercalate, hsep]
  induction ws generalizing w with
  | nil => simp
  | cons x ws ih =>
    rw [List.map_cons, List.map_cons, List.intercalate_cons_cons, ← List.map_cons, ih]
    simp

theorem cons_toList_intercalate (hsep : sep.toList = [c]) {ws : List String} (hne : ws ≠ []) :
    c :: (sep.intercalate ws).toList = ws.flatMap fun x => c :: x.toList := by
  obtain ⟨w, ws, rfl⟩ := List.exists_cons_of_ne_nil hne
  rw [toList_intercalate_cons hsep]
  simp

/-- What comes after such words starts with the sign, if anything comes after them. -/
theorem head?_flatMap_cons {ws : List String} {d : Char}
    (h : (ws.flatMap fun x => c :: x.toList).head? = some d) : d = c := by
  cases ws with
  | nil => cases h
  | cons w ws => exact (Option.some.inj h).symm

/-- Each word is written with the sign before it and something behind it. -/
theorem two_mul_length_le {ws : List String} (h : ∀ w ∈ ws, w.toList ≠ []) :
    2 * ws.length ≤ (ws.flatMap fun x => c :: x.toList).length := by
  induction ws with
  | nil => exact Nat.le_refl 0
  | cons w ws ih =>
    obtain ⟨hw, hws⟩ := List.forall_mem_cons.mp h
    have hpos := List.length_pos_of_ne_nil hw
    have hrest := ih hws
    simp only [List.flatMap_cons, List.length_append, List.length_cons]
    omega

section Span

variable {p : Char → Bool} {cs rest : List Char}

/-- Characters of a kind are all taken, and nothing behind them is. -/
theorem takeWhile_append_of_stop (hcs : ∀ d ∈ cs, p d = true)
    (hrest : ∀ d, rest.head? = some d → p d = false) : (cs ++ rest).takeWhile p = cs := by
  rw [List.takeWhile_append_of_pos hcs]
  cases rest with
  | nil => simp
  | cons d rest => simp [hrest d rfl]

theorem dropWhile_append_of_stop (hcs : ∀ d ∈ cs, p d = true)
    (hrest : ∀ d, rest.head? = some d → p d = false) : (cs ++ rest).dropWhile p = rest := by
  rw [List.dropWhile_append_of_pos hcs]
  cases rest with
  | nil => rfl
  | cons d rest => simp [hrest d rfl]

end Span

end Reshape.Text
