import Mathlib.Tactic
import Reshape.Json.Numeral

/-! Doubles as rounded numbers. A number lies between two neighbours on the grid of a mantissa's last
place, and the mantissa is the nearer one, an even one at a tie. Doubles with a greater exponent lie on
the same grid, and those with a lower one below the least mantissa, so no double is nearer. Where the
mantissa would need another bit beyond the greatest exponent, the infinities begin. -/

namespace Reshape

namespace Double

/-- A magnitude with its sign. -/
def signed (negative : Bool) (p : ℚ) : ℚ := if negative then -p else p

/-- The number that a finite double is. -/
def value : Double → ℚ
  | .finite n m e => signed n (m * 2 ^ e)
  | _ => 0

/-- A mantissa of 53 bits, or one of fewer bits at the least exponent. -/
def IsFinite : Double → Prop
  | .finite _ m e =>
    m < 2 ^ 53 ∧ (e = leastExponent ∨ 2 ^ 52 ≤ m) ∧ leastExponent ≤ e ∧ e ≤ greatestExponent
  | _ => False

def IsEven : Double → Prop
  | .finite _ m _ => Even m
  | _ => False

/-- Half a place above the greatest finite double. -/
def overflow : ℚ := (2 ^ 53 - 1 / 2) * 2 ^ greatestExponent

/-- `x` is what `± p` is rounded to: the nearest double, an even one at a tie, or an infinity. -/
structure Rounds (negative : Bool) (p : ℚ) (x : Double) : Prop where
  sign : x.isNegative = negative
  infinite : overflow ≤ p → x = .infinity negative
  finite : p < overflow → x.IsFinite
  nearest : p < overflow → ∀ y : Double, y.IsFinite →
    |x.value - signed negative p| ≤ |y.value - signed negative p|
  tie : p < overflow → ∀ y : Double, y.IsFinite →
    |x.value - signed negative p| = |y.value - signed negative p| → y.value = x.value ∨ x.IsEven

theorem abs_signed_sub (negative : Bool) (p q : ℚ) :
    |signed negative p - signed negative q| = |p - q| := by
  cases negative
  · rfl
  · rw [signed, signed, if_pos rfl, if_pos rfl, neg_sub_neg, abs_sub_comm]

/-- A finite double has a mantissa of 53 bits, which may carry the sign. -/
theorem exists_mantissa {y : Double} (hy : y.IsFinite) (negative : Bool) :
    ∃ k f : ℤ, |k| < 2 ^ 53 ∧ leastExponent ≤ f ∧ y.value = signed negative (k * 2 ^ f) := by
  cases y with
  | finite n m e =>
    obtain ⟨hm, -, he, -⟩ := hy
    have hm : (m : ℤ) < 2 ^ 53 := by exact_mod_cast hm
    by_cases hn : n = negative
    · subst hn
      exact ⟨m, e, by rwa [Nat.abs_cast], he, by simp [value]⟩
    · refine ⟨-m, e, by rwa [abs_neg, Nat.abs_cast], he, ?_⟩
      cases n <;> cases negative <;> simp_all [value, signed]
  | _ => exact hy.elim

/-! ### The nearest whole number -/

/-- Within one half, and even at a tie. -/
def Near (m : ℕ) (r : ℚ) : Prop := |m - r| ≤ 1 / 2 ∧ (|m - r| = 1 / 2 → Even m)

namespace Near

variable {m : ℕ} {r : ℚ}

theorem half_le (h : Near m r) {k : ℤ} (hk : k ≠ m) : 1 / 2 ≤ |k - r| := by
  have hapart : (1 : ℚ) ≤ |(k : ℚ) - m| := by exact_mod_cast Int.one_le_abs (sub_ne_zero.mpr hk)
  have htriangle := abs_sub_le (k : ℚ) r m
  rw [abs_sub_comm r] at htriangle
  linarith [h.1]

theorem nearest (h : Near m r) (k : ℤ) : |m - r| ≤ |k - r| := by
  by_cases hk : k = m
  · rw [hk, Int.cast_natCast]
  · exact h.1.trans (h.half_le hk)

theorem tie (h : Near m r) {k : ℤ} (hk : |m - r| = |k - r|) : k = m ∨ Even m := by
  by_cases hkm : k = m
  · exact .inl hkm
  · exact .inr (h.2 (le_antisymm h.1 (hk ▸ h.half_le hkm)))

end Near

theorem near_divEven (n : ℕ) {d : ℕ} (hd : 0 < d) : Near (divEven n d) (n / d) := by
  have hdpos : (0 : ℚ) < d := by exact_mod_cast hd
  have hdiv : ((n / d : ℕ) : ℚ) * d + (n % d : ℕ) = n := by exact_mod_cast Nat.div_add_mod' n d
  obtain ⟨t, ht⟩ : ∃ t : ℚ, t = (n % d : ℕ) / d := ⟨_, rfl⟩
  have hquotient : (n : ℚ) / d = (n / d : ℕ) + t := by
    rw [ht]
    field_simp
    linarith
  have hnonneg : 0 ≤ t := ht ▸ by positivity
  have hlow : 2 * (n % d) < d ↔ t < 1 / 2 := by
    rw [ht, div_lt_iff₀ hdpos, ← Nat.cast_lt (α := ℚ)]
    push_cast
    constructor <;> intro h <;> linarith
  have hhigh : d < 2 * (n % d) ↔ 1 / 2 < t := by
    rw [ht, lt_div_iff₀ hdpos, ← Nat.cast_lt (α := ℚ)]
    push_cast
    constructor <;> intro h <;> linarith
  have hone : t < 1 := by
    rw [ht, div_lt_one hdpos]
    exact_mod_cast Nat.mod_lt n hd
  rw [hquotient]
  unfold Near divEven
  simp only [gt_iff_lt, hlow, hhigh]
  split_ifs with hbelow habove
  · rw [sub_add_cancel_left, abs_neg, abs_of_nonneg hnonneg]
    exact ⟨hbelow.le, fun h => absurd h hbelow.ne⟩
  · rw [Nat.cast_succ, add_sub_add_left_eq_sub, abs_of_pos (by linarith)]
    exact ⟨by linarith, fun h => absurd h (by linarith)⟩
  · obtain rfl : t = 1 / 2 := le_antisymm (not_lt.mp habove) (not_lt.mp hbelow)
    have heven : Even (n / d + n / d % 2) := by
      rw [Nat.even_iff]
      omega
    refine ⟨?_, fun _ => heven⟩
    rw [Nat.cast_add, add_sub_add_left_eq_sub]
    rcases Nat.mod_two_eq_zero_or_one (n / d) with h | h <;> rw [h] <;> norm_num

/-! ### The grid -/

section

variable {m : ℕ} {r : ℚ} {e : ℤ}

/-- No double is nearer to `r` places than the mantissa nearest to `r`: one with a greater exponent is
a whole number of places, and one with a lower exponent is below `2 ^ 52` places, and so below `r`. -/
theorem Near.on_grid (h : Near m r) (he : e = leastExponent ∨ 2 ^ 52 ≤ r) {k f : ℤ} (hk : |k| < 2 ^ 53)
    (hf : leastExponent ≤ f) :
    |m * (2 : ℚ) ^ e - r * 2 ^ e| ≤ |k * (2 : ℚ) ^ f - r * 2 ^ e| ∧
      (|m * (2 : ℚ) ^ e - r * 2 ^ e| = |k * (2 : ℚ) ^ f - r * 2 ^ e| →
        k * (2 : ℚ) ^ f = m * 2 ^ e ∨ Even m) := by
  have hplace : (0 : ℚ) < 2 ^ e := by positivity
  have hscale : ∀ x : ℚ, |x * 2 ^ e - r * 2 ^ e| = |x - r| * 2 ^ e := by
    intro x
    rw [← sub_mul, abs_mul, abs_of_pos hplace]
  rcases le_or_gt e f with hef | hfe
  case inl =>
    obtain ⟨j, hj⟩ : ∃ j : ℤ, (k : ℚ) * 2 ^ f = j * 2 ^ e := by
      refine ⟨k * 2 ^ (f - e).toNat, ?_⟩
      push_cast
      rw [mul_assoc, ← zpow_natCast, ← zpow_add₀ two_ne_zero, Int.toNat_of_nonneg (by omega),
        sub_add_cancel]
    rw [hj, hscale, hscale]
    refine ⟨mul_le_mul_of_nonneg_right (h.nearest j) hplace.le, fun heq => ?_⟩
    rcases h.tie (mul_right_cancel₀ hplace.ne' heq) with rfl | heven
    · exact .inl (by push_cast; rfl)
    · exact .inr heven
  case inr =>
    have hr : 2 ^ 52 ≤ r := he.resolve_left (by omega)
    have hbelow : (k : ℚ) * 2 ^ f < 2 ^ 52 * 2 ^ e := by
      have hk : (k : ℚ) < 2 ^ 53 := by exact_mod_cast (le_abs_self k).trans_lt hk
      calc (k : ℚ) * 2 ^ f < 2 ^ 53 * 2 ^ f := mul_lt_mul_of_pos_right hk (by positivity)
        _ = 2 ^ 52 * 2 ^ (f + 1) := by rw [zpow_add_one₀ two_ne_zero]; ring
        _ ≤ 2 ^ 52 * 2 ^ e := by gcongr <;> [norm_num; omega]
    have hleast := h.nearest (2 ^ 52)
    rw [Int.cast_pow, Int.cast_ofNat, abs_sub_comm (2 ^ 52), abs_of_nonneg (sub_nonneg.mpr hr)]
      at hleast
    have hlt : |m * (2 : ℚ) ^ e - r * 2 ^ e| < |k * (2 : ℚ) ^ f - r * 2 ^ e| := by
      rw [hscale, abs_sub_comm ((k : ℚ) * 2 ^ f)]
      have hoff := mul_le_mul_of_nonneg_right hleast hplace.le
      have habs := le_abs_self (r * 2 ^ e - k * (2 : ℚ) ^ f)
      linarith
    exact ⟨hlt.le, fun heq => absurd heq hlt.ne⟩

end

/-! ### Places -/

section

variable {num den : ℕ}

theorem scaled_den_pos (num : ℕ) (hden : 0 < den) (shift : ℤ) : 0 < (scaled num den shift).2 := by
  unfold scaled
  split_ifs
  · exact hden
  · exact Nat.mul_pos hden (Nat.pow_pos (by decide))

theorem scaled_eq (num den : ℕ) (shift : ℤ) :
    ((scaled num den shift).1 : ℚ) / (scaled num den shift).2 = num / den * 2 ^ shift := by
  unfold scaled
  split_ifs with hshift
  · simp only [Nat.pow_eq, Nat.cast_mul, Nat.cast_pow, Nat.cast_ofNat]
    rw [← zpow_natCast, Int.toNat_of_nonneg hshift]
    ring
  · simp only [Nat.pow_eq, Nat.cast_mul, Nat.cast_pow, Nat.cast_ofNat]
    rw [← zpow_natCast, Int.toNat_of_nonneg (by omega), zpow_neg, div_mul_eq_div_div, div_inv_eq_mul]

/-- Binary digits bound a quotient on either side. -/
theorem log2_bounds (hnum : num ≠ 0) (hden : den ≠ 0) :
    (2 : ℚ) ^ ((num.log2 : ℤ) - den.log2 - 1) < num / den ∧
      (num : ℚ) / den < 2 ^ ((num.log2 : ℤ) - den.log2 + 1) := by
  have hlow : ∀ {n : ℕ}, n ≠ 0 → (2 : ℚ) ^ (n.log2 : ℤ) ≤ n := by
    intro n hn
    rw [zpow_natCast]
    exact_mod_cast Nat.log2_self_le hn
  have hhigh : ∀ n : ℕ, (n : ℚ) < 2 ^ ((n.log2 : ℤ) + 1) := by
    intro n
    have h : (n : ℚ) < 2 ^ (n.log2 + 1) := by exact_mod_cast Nat.lt_log2_self
    exact_mod_cast h
  have hdenpos : (0 : ℚ) < den := by exact_mod_cast Nat.pos_of_ne_zero hden
  constructor
  · rw [lt_div_iff₀ hdenpos]
    calc (2 : ℚ) ^ ((num.log2 : ℤ) - den.log2 - 1) * den
        < 2 ^ ((num.log2 : ℤ) - den.log2 - 1) * 2 ^ ((den.log2 : ℤ) + 1) :=
          mul_lt_mul_of_pos_left (hhigh den) (by positivity)
      _ = 2 ^ (num.log2 : ℤ) := by rw [← zpow_add₀ two_ne_zero]; congr 1; ring
      _ ≤ num := hlow hnum
  · rw [div_lt_iff₀ hdenpos]
    calc (num : ℚ) < 2 ^ ((num.log2 : ℤ) + 1) := hhigh num
      _ = 2 ^ ((num.log2 : ℤ) - den.log2 + 1) * 2 ^ (den.log2 : ℤ) := by
          rw [← zpow_add₀ two_ne_zero]; congr 1; ring
      _ ≤ 2 ^ ((num.log2 : ℤ) - den.log2 + 1) * den :=
          mul_le_mul_of_nonneg_left (hlow hden) (by positivity)

theorem div_lt_two_pow_52_iff (n : ℕ) {d : ℕ} (hd : 0 < d) :
    n / d < Nat.pow 2 52 ↔ (n : ℚ) / d < 2 ^ 52 := by
  rw [div_lt_iff₀ (by exact_mod_cast hd), Nat.div_lt_iff_lt_mul hd, Nat.pow_eq]
  exact_mod_cast Iff.rfl

/-- At its exponent a quotient has 53 binary digits before the point, or fewer at the least one. -/
theorem exponentOf_places (hnum : num ≠ 0) (hden : 0 < den) :
    (num : ℚ) / den * 2 ^ (-exponentOf num den) < 2 ^ 53 ∧
      (exponentOf num den = leastExponent ∨ 2 ^ 52 ≤ (num : ℚ) / den * 2 ^ (-exponentOf num den)) ∧
      leastExponent ≤ exponentOf num den := by
  obtain ⟨hlow, hhigh⟩ := log2_bounds hnum hden.ne'
  obtain ⟨p, hp⟩ : ∃ p : ℚ, p = num / den := ⟨_, rfl⟩
  obtain ⟨guess, hguess⟩ : ∃ g : ℤ, g = (num.log2 : ℤ) - den.log2 - 52 := ⟨_, rfl⟩
  rw [← hp] at hlow hhigh ⊢
  have habove : 2 ^ 51 < p * 2 ^ (-guess) := by
    rw [show (num.log2 : ℤ) - den.log2 - 1 = 51 + guess by omega, zpow_add₀ two_ne_zero] at hlow
    rwa [zpow_neg, ← div_eq_mul_inv, lt_div_iff₀ (by positivity)]
  have hbelow : p * 2 ^ (-guess) < 2 ^ 53 := by
    rw [show (num.log2 : ℤ) - den.log2 + 1 = 53 + guess by omega, zpow_add₀ two_ne_zero] at hhigh
    rwa [zpow_neg, ← div_eq_mul_inv, div_lt_iff₀ (by positivity)]
  -- the exponent that fits if it is not too small
  obtain ⟨best, hbest, hexponent⟩ : ∃ best : ℤ, (2 ^ 52 ≤ p * 2 ^ (-best) ∧ p * 2 ^ (-best) < 2 ^ 53) ∧
      exponentOf num den = max leastExponent best := by
    have hsmall := div_lt_two_pow_52_iff (scaled num den (-guess)).1
      (scaled_den_pos num hden (-guess))
    rw [scaled_eq, ← hp] at hsmall
    rcases lt_or_ge (p * 2 ^ (-guess)) (2 ^ 52) with hlt | hge
    · refine ⟨guess - 1, ?_, ?_⟩
      · rw [neg_sub, sub_eq_add_neg, zpow_add₀ two_ne_zero, zpow_one]
        constructor <;> linarith
      · rw [exponentOf, ← hguess]
        simp only [hsmall.mpr hlt, if_true]
    · refine ⟨guess, ⟨hge, hbelow⟩, ?_⟩
      rw [exponentOf, ← hguess]
      simp only [if_neg (hsmall.not.mpr (not_lt.mpr hge))]
  rw [hexponent]
  rcases le_total leastExponent best with hle | hle
  · rw [max_eq_right hle]
    exact ⟨hbest.2, .inr hbest.1, hle⟩
  · rw [max_eq_left hle]
    refine ⟨lt_of_le_of_lt ?_ hbest.2, .inl rfl, le_rfl⟩
    have hpos : 0 ≤ p := hp ▸ by positivity
    gcongr
    norm_num

end

/-! ### Rounding -/

namespace Near

variable {m : ℕ} {r : ℚ} {e : ℤ}

theorem le_of_lt (h : Near m r) {c : ℕ} (hr : r < c) : m ≤ c := by
  by_contra hlt
  have hm : (c : ℚ) + 1 ≤ m := by exact_mod_cast not_le.mp hlt
  linarith [(abs_le.mp h.1).2]

theorem le_of_le (h : Near m r) {c : ℕ} (hr : c ≤ r) : c ≤ m := by
  by_contra hlt
  have hm : (m : ℚ) + 1 ≤ c := by exact_mod_cast not_le.mp hlt
  linarith [(abs_le.mp h.1).1]

/-- The mantissa needs another bit from half a place below it on. -/
theorem eq_two_pow_53_iff (h : Near m r) (hr : r < 2 ^ 53) : m = 2 ^ 53 ↔ 2 ^ 53 - 1 / 2 ≤ r := by
  obtain ⟨hlow, hhigh⟩ := abs_le.mp h.1
  constructor
  · rintro rfl
    push_cast at hhigh
    linarith
  · intro hle
    have hm : m ≤ 2 ^ 53 := h.le_of_lt (by exact_mod_cast hr)
    by_contra hne
    have hsucc : (m : ℚ) + 1 ≤ 2 ^ 53 := by exact_mod_cast (show m + 1 ≤ 2 ^ 53 by omega)
    have hpred : 2 ^ 53 ≤ m + 1 := by exact_mod_cast (show (2 ^ 53 : ℚ) ≤ m + 1 by linarith)
    obtain ⟨j, hj⟩ := h.2 (by rw [abs_sub_comm, abs_of_nonneg (by linarith)]; linarith)
    omega

/-- The infinities begin where the exponent, raised if the mantissa needs another bit, is too great. -/
theorem overflow_le_iff (h : Near m r) (hr : r < 2 ^ 53) (he : e = leastExponent ∨ 2 ^ 52 ≤ r) :
    overflow ≤ r * 2 ^ e ↔ greatestExponent < if m = 2 ^ 53 then e + 1 else e := by
  have hrange : leastExponent < greatestExponent := by decide
  have hdef : overflow = (2 ^ 53 - 1 / 2) * 2 ^ greatestExponent := rfl
  generalize greatestExponent = g at *
  have hg : (0 : ℚ) < 2 ^ g := by positivity
  have hlow : 2 ^ 52 * 2 ^ g ≤ overflow := hdef ▸ mul_le_mul_of_nonneg_right (by norm_num) hg.le
  have hhigh : overflow ≤ 2 ^ 53 * 2 ^ g := hdef ▸ mul_le_mul_of_nonneg_right (by norm_num) hg.le
  rcases lt_trichotomy e g with hlt | rfl | hgt
  case inl =>
    have hbelow : r * 2 ^ e < overflow := by
      calc r * (2 : ℚ) ^ e < 2 ^ 53 * 2 ^ e := mul_lt_mul_of_pos_right hr (by positivity)
        _ = 2 ^ 52 * 2 ^ (e + 1) := by rw [zpow_add_one₀ two_ne_zero]; ring
        _ ≤ 2 ^ 52 * 2 ^ g := by gcongr <;> [norm_num; omega]
        _ ≤ overflow := hlow
    refine iff_of_false (not_le.mpr hbelow) ?_
    split_ifs <;> omega
  case inr.inl =>
    rw [hdef, mul_le_mul_iff_left₀ hg, ← h.eq_two_pow_53_iff hr]
    by_cases hm : m = 2 ^ 53
    · rw [if_pos hm]
      exact iff_of_true hm (by omega)
    · rw [if_neg hm]
      exact iff_of_false hm (by omega)
  case inr.inr =>
    have hr : 2 ^ 52 ≤ r := he.resolve_left (by omega)
    have habove : overflow ≤ r * 2 ^ e := by
      calc overflow ≤ 2 ^ 53 * 2 ^ g := hhigh
        _ = 2 ^ 52 * 2 ^ (g + 1) := by rw [zpow_add_one₀ two_ne_zero]; ring
        _ ≤ 2 ^ 52 * 2 ^ e := by gcongr <;> [norm_num; omega]
        _ ≤ r * 2 ^ e := mul_le_mul_of_nonneg_right hr (by positivity)
    refine iff_of_true habove ?_
    split_ifs <;> omega

end Near

theorem rounds_infinity {negative : Bool} {p : ℚ} (h : overflow ≤ p) :
    Rounds negative p (.infinity negative) where
  sign := rfl
  infinite _ := rfl
  finite hp := absurd hp (not_lt.mpr h)
  nearest hp := absurd hp (not_lt.mpr h)
  tie hp := absurd hp (not_lt.mpr h)

/-- A number of `r` places, rounded: a mantissa that needs another bit is carried into the exponent. -/
theorem rounds_of_near (negative : Bool) {m : ℕ} {r : ℚ} {e : ℤ} (h : Near m r) (hr : r < 2 ^ 53)
    (he : e = leastExponent ∨ 2 ^ 52 ≤ r) (hle : leastExponent ≤ e) :
    Rounds negative (r * 2 ^ e)
      (let (m, e) := if m = Nat.pow 2 53 then (Nat.pow 2 52, e + 1) else (m, e)
      if e > greatestExponent then .infinity negative else .finite negative m e) := by
  obtain ⟨m', e', hcarry, hvalue, heven, hbits, hplaces, hleast, hexponent⟩ : ∃ (m' : ℕ) (e' : ℤ),
      (if m = Nat.pow 2 53 then (Nat.pow 2 52, e + 1) else (m, e)) = (m', e') ∧
      (m' : ℚ) * 2 ^ e' = m * 2 ^ e ∧ (Even m → Even m') ∧ m' < 2 ^ 53 ∧
      (e' = leastExponent ∨ 2 ^ 52 ≤ m') ∧ leastExponent ≤ e' ∧
      e' = if m = 2 ^ 53 then e + 1 else e := by
    by_cases hm : m = 2 ^ 53
    · refine ⟨2 ^ 52, e + 1, if_pos hm, ?_, fun _ => by decide, by norm_num, .inr le_rfl, by omega,
        (if_pos hm).symm⟩
      rw [hm, zpow_add_one₀ two_ne_zero]
      push_cast
      ring
    · have hlt : m ≤ 2 ^ 53 := h.le_of_lt (by exact_mod_cast hr)
      exact ⟨m, e, if_neg hm, rfl, id, by omega, he.imp_right fun h52 => h.le_of_le (by exact_mod_cast h52),
        hle, (if_neg hm).symm⟩
  have hoverflow := h.overflow_le_iff hr he
  rw [← hexponent] at hoverflow
  rw [hcarry]
  simp only
  split_ifs with hgreat
  · exact rounds_infinity (hoverflow.mpr hgreat)
  · have hfinite : r * 2 ^ e < overflow := not_le.mp (hoverflow.not.mpr hgreat)
    refine ⟨rfl, fun hp => absurd hp (not_le.mpr hfinite),
      fun _ => ⟨hbits, hplaces, hleast, not_lt.mp hgreat⟩, fun _ y hy => ?nearest, fun _ y hy heq => ?tie⟩
    case nearest =>
      obtain ⟨k, f, hk, hf, hy⟩ := exists_mantissa hy negative
      rw [hy, value, abs_signed_sub, abs_signed_sub, hvalue]
      exact (h.on_grid he hk hf).1
    case tie =>
      obtain ⟨k, f, hk, hf, hy⟩ := exists_mantissa hy negative
      rw [hy, value, abs_signed_sub, abs_signed_sub, hvalue] at heq
      rw [hy, value, hvalue]
      exact ((h.on_grid he hk hf).2 heq).imp (congrArg (signed negative)) heven

/-- What is less than half the least double is rounded to zero. -/
theorem rounds_zero (negative : Bool) {p : ℚ} (hp : 0 ≤ p) (h : p * 2 ^ (-leastExponent) < 1 / 2) :
    Rounds negative p (zero negative) := by
  have hnear : Near 0 (p * 2 ^ (-leastExponent)) := by
    rw [Near, Nat.cast_zero, zero_sub, abs_neg, abs_of_nonneg (by positivity)]
    exact ⟨h.le, fun _ => by decide⟩
  have hrounds := rounds_of_near negative hnear (h.trans (by norm_num)) (.inl rfl) le_rfl
  rw [mul_assoc, zpow_neg_mul_zpow_self _ two_ne_zero, mul_one] at hrounds
  exact hrounds

/-- A quotient of natural numbers is rounded to the nearest double. -/
theorem rounds_ofRatio (negative : Bool) (num : ℕ) {den : ℕ} (hden : 0 < den) :
    Rounds negative (num / den) (ofRatio negative num den) := by
  by_cases hnum : num = 0
  · rw [hnum, Nat.cast_zero, zero_div]
    exact rounds_zero negative le_rfl (by norm_num)
  · obtain ⟨hr, he, hle⟩ := exponentOf_places hnum hden
    have hnear := near_divEven (scaled num den (-exponentOf num den)).1
      (scaled_den_pos num hden (-exponentOf num den))
    rw [scaled_eq] at hnear
    have hrounds := rounds_of_near negative hnear hr he hle
    rw [mul_assoc, zpow_neg_mul_zpow_self _ two_ne_zero, mul_one] at hrounds
    rw [ofRatio, if_neg hnum]
    exact hrounds

end Double

/-! ### Decimals -/

namespace Decimal

/-- The magnitude of a decimal. -/
def magnitude (d : Decimal) : ℚ := d.coefficient * 10 ^ d.exponent

/-- The leading digit tells the magnitude. -/
theorem magnitude_bounds {d : Decimal} (hd : d.coefficient ≠ 0) :
    10 ^ d.adjusted ≤ d.magnitude ∧ d.magnitude < 10 ^ (d.adjusted + 1) := by
  obtain ⟨len, hlen⟩ : ∃ len, (digits d.coefficient).length = len + 1 := by
    refine ⟨(digits d.coefficient).length - 1, ?_⟩
    have hpos : 0 < (digits d.coefficient).length := List.length_pos_iff.mpr Nat.toDigits_ne_nil
    omega
  have hhigh : d.coefficient < 10 ^ (len + 1) :=
    (Nat.length_toDigits_le_iff (by decide) (by omega)).mp hlen.le
  have hlow : 10 ^ len ≤ d.coefficient := by
    cases len with
    | zero => exact Nat.one_le_iff_ne_zero.mpr hd
    | succ len =>
      refine not_lt.mp fun hlt => ?_
      have hle := (Nat.length_toDigits_le_iff (by decide) (by omega)).mpr hlt
      rw [← digits, hlen] at hle
      omega
  have hadjusted : d.adjusted = len + d.exponent := by
    rw [adjusted, hlen]
    push_cast
    ring
  have hplace : (0 : ℚ) < 10 ^ d.exponent := by positivity
  rw [hadjusted, magnitude, add_right_comm, zpow_add₀ (by norm_num), zpow_add₀ (by norm_num)]
  exact ⟨mul_le_mul_of_nonneg_right (by exact_mod_cast hlow) hplace.le,
    mul_lt_mul_of_pos_right (by exact_mod_cast hhigh) hplace⟩

end Decimal

namespace Json

open Double

theorem two_pow_lt_ten_pow {a b : ℕ} (hb : b ≠ 0) (h : a ≤ 3 * b) : (2 : ℚ) ^ a < 10 ^ b := by
  calc (2 : ℚ) ^ a ≤ 2 ^ (3 * b) := pow_le_pow_right₀ (by norm_num) h
    _ = (2 ^ 3) ^ b := pow_mul 2 3 b
    _ < 10 ^ b := pow_lt_pow_left₀ (by norm_num) (by positivity) hb

/-- Numbers of more than 401 digits are rounded to an infinity. -/
theorem overflow_lt : overflow < 10 ^ 401 := by
  have hgreatest : greatestExponent = (971 : ℕ) := rfl
  rw [overflow, hgreatest, zpow_natCast]
  calc ((2 : ℚ) ^ 53 - 1 / 2) * 2 ^ 971 < 2 ^ 53 * 2 ^ 971 := by gcongr; norm_num
    _ = 2 ^ 1024 := (pow_add 2 53 971).symm
    _ < 10 ^ 401 := two_pow_lt_ten_pow (by decide) (by decide)

/-- Numbers with at least 400 zeros behind the point are less than half the least double. -/
theorem lt_half_place : (10 : ℚ) ^ (-400 : ℤ) * 2 ^ (-leastExponent) < 1 / 2 := by
  have hleast : -leastExponent = (1074 : ℕ) := rfl
  have hten : (10 : ℚ) ^ (-400 : ℤ) = (10 ^ 400)⁻¹ := by rw [zpow_neg, zpow_ofNat]
  rw [hleast, zpow_natCast, hten, inv_mul_lt_iff₀ (by positivity), mul_one_div, lt_div_iff₀ two_pos,
    ← pow_succ]
  exact two_pow_lt_ten_pow (by decide) (by decide)

/-- The double that is read for a decimal is what its magnitude, with its sign, is rounded to. -/
theorem rounds_nearestDouble (d : Decimal) :
    (nearestDouble d).Rounds d.negative d.magnitude := by
  unfold nearestDouble
  split_ifs with hzero hgreat hsmall hwhole
  · rw [Decimal.magnitude, hzero, Nat.cast_zero, zero_mul]
    exact rounds_zero d.negative le_rfl (by norm_num)
  · refine rounds_infinity (overflow_lt.le.trans (le_trans ?_ (Decimal.magnitude_bounds hzero).1))
    rw [← zpow_natCast]
    exact zpow_le_zpow_right₀ (by norm_num) (by push_cast; omega)
  · have hnonneg : 0 ≤ d.magnitude := by unfold Decimal.magnitude; positivity
    refine rounds_zero d.negative hnonneg (lt_of_lt_of_le ?_ lt_half_place.le)
    refine mul_lt_mul_of_pos_right ((Decimal.magnitude_bounds hzero).2.trans_le ?_) (by positivity)
    exact zpow_le_zpow_right₀ (by norm_num) (by omega)
  · have hrounds := rounds_ofRatio d.negative (d.coefficient * Nat.pow 10 d.exponent.toNat) one_pos
    rw [Nat.pow_eq, Nat.cast_mul, Nat.cast_pow, Nat.cast_ofNat, Nat.cast_one, div_one,
      ← zpow_natCast, Int.toNat_of_nonneg hwhole] at hrounds
    exact hrounds
  · have hrounds := rounds_ofRatio d.negative d.coefficient
      (Nat.pow_pos (by decide) : 0 < Nat.pow 10 (-d.exponent).toNat)
    rw [Nat.cast_pow, Nat.cast_ofNat, ← zpow_natCast, Int.toNat_of_nonneg (by omega), zpow_neg,
      div_inv_eq_mul] at hrounds
    exact hrounds

/-- Half way between two doubles. -/
example : nearestDouble ⟨false, 2 ^ 53 + 1, 0⟩ = .finite false (2 ^ 52) 1 := by decide +kernel

end Json

end Reshape
