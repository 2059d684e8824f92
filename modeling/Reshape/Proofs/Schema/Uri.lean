import Mathlib.Data.List.Basic
import Reshape.Proofs.Outcome
import Reshape.Schema.Resource
import Reshape.Schema.Uri

/-! Addresses. One whose brackets do not enclose a host has no normal form; a proper one is resolved to
itself, and is an identifier as it stands. -/

namespace Reshape.Schema

namespace Uri

/-- What is between the slashes behind the scheme of an address and its path. -/
def authorityOf (address : String) : List Char :=
  (takeAuthority (takeScheme [] (cleaned address)).2).1

theorem normalized_eq_error {t : String} {c : Crash} :
    normalized t = .error c ↔
      Host.isAuthority (authorityOf t) = false ∧ c = .badValue := by
  unfold normalized split authorityOf
  split
  next scheme cs hscheme =>
  split
  next authority cs hauthority =>
  simp only [hscheme, hauthority]
  cases Host.isAuthority authority <;> simp [pure, Except.pure, eq_comm]

/-! ### Proper addresses -/

/-- Whether a text is an address with an authority, as addresses are written, and not only a place in
it. -/
def isProper (s : String) : Bool :=
  match parse [] s with
  | .ok u => decide (parse u.scheme s = .ok u) && isOneOf relativeSchemes u.scheme &&
      isOneOf authoritySchemes u.scheme && !u.authority.isEmpty && u.text == s &&
      s.toList.getLast? != some '#'
  | .error _ => false

/-- A proper address is resolved to itself. -/
theorem join_self {s : String} (h : isProper s = true) : join s s = .ok s := by
  have hempty : s.isEmpty = false := by
    rw [Bool.eq_false_iff]
    intro hs
    rw [String.isEmpty_iff.mp hs] at h
    exact absurd h (by decide)
  unfold isProper at h
  split at h
  · next u hu =>
    simp only [Bool.and_eq_true, decide_eq_true_eq, Bool.not_eq_true', beq_iff_eq] at h
    obtain ⟨⟨⟨⟨⟨hscheme, hrelative⟩, howned⟩, hauthority⟩, htext⟩, -⟩ := h
    have hresolve : resolve u u = u := by simp [resolve, howned, hauthority]
    unfold join
    simp only [hempty, Bool.false_eq_true, if_false, hu, hscheme, Except.ok_bind,
      bne_self_eq_false, hrelative, Bool.not_true, Bool.or_self, hresolve, htext]
    rfl
  · cases h

theorem getLast?_of_isProper {s : String} (h : isProper s = true) :
    s.toList.getLast? ≠ some '#' := by
  unfold isProper at h
  split at h
  · simp only [Bool.and_eq_true, bne_iff_ne] at h
    exact h.2
  · cases h

end Uri

theorem withoutMark_self {s : String} (h : s.toList.getLast? ≠ some '#') : withoutMark s = s := by
  have hdrop : s.toList.reverse.dropWhile (· == '#') = s.toList.reverse := by
    rcases hr : s.toList.reverse with _ | ⟨c, cs⟩
    · rfl
    · have hc : (c == '#') = false := by
        rw [beq_eq_false_iff_ne]
        rintro rfl
        exact h (by rw [List.getLast?_eq_head?_reverse, hr]; rfl)
      rw [List.dropWhile_cons, hc]
      rfl
  rw [withoutMark, hdrop, List.reverse_reverse, String.ofList_toList]

end Reshape.Schema
