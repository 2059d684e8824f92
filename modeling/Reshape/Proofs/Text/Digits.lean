import Mathlib.Tactic
import Reshape.Text.Numeral

/-! Natural numbers written in decimal digits, and read back as people's numbers are read. -/

namespace Reshape.Text

/-! ### Digits -/

theorem toNat_of_isDigit {c : Char} (h : c.isDigit = true) : 48 ≤ c.toNat ∧ c.toNat ≤ 57 := by
  simpa [Char.isDigit, UInt32.le_iff_toNat_le] using h

theorem isWhite_of_isDigit {c : Char} (h : c.isDigit = true) : isWhite c = false := by
  obtain ⟨hlo, hhi⟩ := toNat_of_isDigit h
  simp [isWhite, inRanges, whiteSpace]
  omega

theorem isDigit_of_mem_toDigits {n : Nat} {c : Char} (h : c ∈ Nat.toDigits 10 n) : c.isDigit = true :=
  Nat.isDigit_of_mem_toDigits (by decide) (by decide) h

/-- Only zero starts with a zero. -/
theorem head?_toDigits {n : Nat} (h : 0 < n) : (Nat.toDigits 10 n).head? ≠ some '0' := by
  induction n using Nat.strong_induction_on with
  | h n ih =>
    by_cases hn : n < 10
    · rw [Nat.toDigits_of_lt_base hn]
      simp
      omega
    · rw [Nat.toDigits_of_base_le (by decide) (by omega),
        List.head?_append_of_ne_nil _ Nat.toDigits_ne_nil]
      exact ih (n / 10) (by omega) (by omega)

theorem natOfDigits_toDigits (n : Nat) : Json.natOfDigits (Nat.toDigits 10 n) = n :=
  Nat.ofDigitChars_ten_toDigits

theorem digitChar_of_isDigit {c : Char} (h : c.isDigit = true) : Nat.digitChar (c.toNat - 48) = c := by
  obtain ⟨hlo, hhi⟩ := toNat_of_isDigit h
  apply Char.toNat_inj.mp
  rw [Nat.toNat_digitChar_of_lt_ten (by omega)]
  omega

/-- Digits that are read behind a number are written behind it. -/
theorem toDigits_foldl {ds : List Char} (h : ∀ c ∈ ds, c.isDigit = true) {n : Nat} (hn : 0 < n) :
    Nat.toDigits 10 (ds.foldl (fun n d => 10 * n + (d.toNat - 48)) n) = Nat.toDigits 10 n ++ ds := by
  induction ds generalizing n with
  | nil => simp
  | cons c rest ih =>
    obtain ⟨hc, hrest⟩ := List.forall_mem_cons.mp h
    obtain ⟨hlo, hhi⟩ := toNat_of_isDigit hc
    have hlast := Nat.toDigits_append_toDigits (b := 10) (n := n) (d := c.toNat - 48) (by decide) hn
      (by omega)
    have hdigit : Nat.toDigits 10 (c.toNat - 48) = [c] := by
      rw [Nat.toDigits_of_lt_base (by omega), digitChar_of_isDigit hc]
    rw [hdigit] at hlast
    rw [List.foldl_cons, ih hrest (by omega), ← hlast, List.append_assoc, List.singleton_append]

/-- Digits that do not start with a zero are written again. -/
theorem toDigits_natOfDigits {c : Char} {ds : List Char} (h : ∀ d ∈ c :: ds, d.isDigit = true)
    (hc : c ≠ '0') : Nat.toDigits 10 (Json.natOfDigits (c :: ds)) = c :: ds := by
  obtain ⟨hdigit, hds⟩ := List.forall_mem_cons.mp h
  obtain ⟨hlo, hhi⟩ := toNat_of_isDigit hdigit
  have hpos : c.toNat ≠ 48 := fun h => hc (Char.toNat_inj.mp h)
  rw [Json.natOfDigits, List.foldl_cons, Nat.mul_zero, Nat.zero_add, toDigits_foldl hds (by omega),
    Nat.toDigits_of_lt_base (by omega), digitChar_of_isDigit hdigit, List.singleton_append]

/-! ### Reading -/

theorem trimBoth_of_forall {p : Char → Bool} {cs : List Char} (h : ∀ c ∈ cs, p c = false) :
    trimBoth p cs = cs := by
  have hdrop : ∀ ds : List Char, (∀ c ∈ ds, p c = false) → ds.dropWhile p = ds := by
    intro ds hds
    cases ds with
    | nil => rfl
    | cons c rest => simp [hds c List.mem_cons_self]
  have hrev : ∀ c ∈ cs.reverse, p c = false := fun c hc => h c (List.mem_reverse.mp hc)
  rw [trimBoth, hdrop cs h, hdrop _ hrev, List.reverse_reverse]

theorem plainDigits_of_isDigit {s : String} (h : ∀ c ∈ s.toList, c.isDigit = true) :
    plainDigits s = s.toList := by
  rw [plainDigits, trimBoth_of_forall fun c hc => isWhite_of_isDigit (h c hc)]
  conv_rhs => rw [← List.map_id s.toList]
  apply List.map_congr_left
  intro c hc
  obtain ⟨hlo, -⟩ := toNat_of_isDigit (h c hc)
  simp only [digitValue?, h c hc, if_true, id_eq]
  rw [Nat.add_sub_cancel' hlo, Char.ofNat_toNat]

theorem dropUnderscores_of_isDigit {cs : List Char} (h : ∀ c ∈ cs, c.isDigit = true)
    (before : Option Char) : dropUnderscores before cs = some cs := by
  induction cs generalizing before with
  | nil => simp [dropUnderscores]
  | cons c rest ih =>
    obtain ⟨hc, hrest⟩ := List.forall_mem_cons.mp h
    have hne : c ≠ '_' := by
      rintro rfl
      simp at hc
    rw [dropUnderscores]
    · simp [ih hrest]
    · exact hne

theorem takeSign_of_isDigit {cs : List Char} (h : ∀ c ∈ cs, c.isDigit = true) :
    takeSign cs = (false, cs) := by
  unfold takeSign
  split
  · simp at h
  · simp at h
  · rfl

/-- A number is read back, unless it has too many digits. -/
theorem readInteger?_toString_eq (n : Nat) :
    readInteger? (toString n) = if n < 10 ^ Json.digitLimit then some (n : Int) else none := by
  have hlength : (Nat.toDigits 10 n).length ≤ Json.digitLimit ↔ n < 10 ^ Json.digitLimit :=
    Nat.length_toDigits_le_iff (by decide) (by decide)
  have hall : ∀ c ∈ Nat.toDigits 10 n, c.isDigit = true := fun c hc => isDigit_of_mem_toDigits hc
  have hdigits : ∀ c ∈ (toString n).toList, c.isDigit = true := by simpa using hall
  simp only [readInteger?, plainDigits_of_isDigit hdigits, takeSign_of_isDigit hdigits,
    dropUnderscores_of_isDigit hdigits]
  by_cases h : n < 10 ^ Json.digitLimit
  · have hshort := Nat.not_lt.mpr (hlength.mpr h)
    simpa [h, hshort, natOfDigits_toDigits] using hall
  · have hlong := Nat.not_le.mp fun hle => h (hlength.mp hle)
    simp [h, hlong]

/-- A number that is short enough to be read is read back. -/
theorem readInteger?_toString {n : Nat} (h : n < 10 ^ Json.digitLimit) :
    readInteger? (toString n) = some (n : Int) := by
  rw [readInteger?_toString_eq, if_pos h]

end Reshape.Text
