import Mathlib.Order.Monotone.Basic
import Mathlib.Tactic.Ring
import Rulebook.Binary64.Rounding

/-!
# Rounding keeps the order

A magnitude counts one more spacing than the one before it (`unitsOf_succ`), so sizes grow
with magnitudes (`unitsOf_mono`).  Of two quotients the greater one has the greater nearest
magnitude (`nearestMagnitude_mono`): within a binade because the nearest integer grows with
the quotient, and between binades because each of them takes up its own magnitudes.  So a
product is finite if one of greater numbers is (`isFinite_mul_of_le`).
-/

namespace Rulebook.Binary64

/-! ## Sizes of magnitudes -/

theorem spacing_eq (magnitude : Nat) : spacing magnitude = 2 ^ (magnitude / 2 ^ 52 - 1) := by
  rw [spacing, Nat.one_shiftLeft, Nat.shiftRight_eq_div_pow]

theorem spacing_pos (magnitude : Nat) : 0 < spacing magnitude := by
  rw [spacing_eq]
  exact Nat.two_pow_pos _

theorem spacing_mono {m m' : Nat} (h : m ≤ m') : spacing m ≤ spacing m' := by
  rw [spacing_eq, spacing_eq]
  exact Nat.pow_le_pow_right (by decide) (Nat.sub_le_sub_right (Nat.div_le_div_right h) 1)

theorem spacing_le_unitsOf {magnitude : Nat} (h : 0 < magnitude) :
    spacing magnitude ≤ unitsOf magnitude := by
  rw [unitsOf]
  split
  next hlow =>
    have hbinade : magnitude / 2 ^ 52 = 0 := Nat.div_eq_of_lt hlow
    rw [spacing_eq, hbinade]
    exact h
  next =>
    exact Nat.le_mul_of_pos_left _ (by omega)

/-- The size of a magnitude in the binade `b + 1`. -/
theorem unitsOf_of_binade {m b : Nat} (h : m / 2 ^ 52 = b + 1) :
    unitsOf m = (2 ^ 52 + m % 2 ^ 52) * 2 ^ b := by
  have hlow : ¬ m < 1 <<< 52 := by omega
  rw [unitsOf, if_neg hlow, spacing_eq, h, Nat.one_shiftLeft, Nat.add_sub_cancel]

/-- A significand has at most 53 binary digits. -/
theorem unitsOf_lt (m : Nat) : unitsOf m < 2 ^ 53 * spacing m := by
  cases hbinade : m / 2 ^ 52 with
  | zero =>
      have hspacing := spacing_pos m
      rw [unitsOf, if_pos (show m < 1 <<< 52 by omega)]
      omega
  | succ b =>
      have hspacing : spacing m = 2 ^ b := by rw [spacing_eq, hbinade, Nat.add_sub_cancel]
      rw [unitsOf_of_binade hbinade, hspacing]
      exact Nat.mul_lt_mul_of_pos_right (by omega) (Nat.two_pow_pos b)

/-- The least number of a binade is `2 ^ 52` times the spacing. -/
theorem unitsOf_of_power {m : Nat} (h : m % 1 <<< 52 = 0) (hlt : 1 <<< 52 < m) :
    unitsOf m = 2 ^ 52 * spacing m := by
  rw [unitsOf, if_neg (Nat.lt_asymm hlt), h, Nat.add_zero, Nat.one_shiftLeft]

/-- The next magnitude lies one spacing further. -/
theorem unitsOf_succ (m : Nat) : unitsOf (m + 1) = unitsOf m + spacing m := by
  cases hbinade : m / 2 ^ 52 with
  | zero =>
      have hlow : m < 1 <<< 52 := by omega
      have hspacing : spacing m = 1 := by
        rw [spacing_eq, hbinade]
        rfl
      have hunits : unitsOf m = m := if_pos hlow
      rw [hspacing, hunits]
      by_cases hnext : m + 1 < 1 <<< 52
      · exact if_pos hnext
      · have hdiv : (m + 1) / 2 ^ 52 = 0 + 1 := by omega
        rw [unitsOf_of_binade hdiv]
        omega
  | succ b =>
      have hspacing : spacing m = 2 ^ b := by rw [spacing_eq, hbinade, Nat.add_sub_cancel]
      rw [hspacing, unitsOf_of_binade hbinade]
      by_cases hnext : m % 2 ^ 52 + 1 < 2 ^ 52
      · have hdiv : (m + 1) / 2 ^ 52 = b + 1 := by omega
        have hmod : (m + 1) % 2 ^ 52 = m % 2 ^ 52 + 1 := by omega
        rw [unitsOf_of_binade hdiv, hmod]
        ring
      · have hdiv : (m + 1) / 2 ^ 52 = b + 1 + 1 := by omega
        have hmod : (m + 1) % 2 ^ 52 = 0 := by omega
        have htop : m % 2 ^ 52 = 2 ^ 52 - 1 := by omega
        rw [unitsOf_of_binade hdiv, hmod, htop]
        ring

theorem unitsOf_mono {m m' : Nat} (h : m ≤ m') : unitsOf m ≤ unitsOf m' := by
  refine monotone_nat_of_le_succ ?_ h
  intro n
  rw [unitsOf_succ]
  exact Nat.le_add_right _ _

/-! ## The nearest magnitude -/

theorem div_le_roundHalfEven (num den : Nat) : num / den ≤ roundHalfEven num den := by
  simp only [roundHalfEven]
  split <;> omega

theorem roundHalfEven_le (num den : Nat) : roundHalfEven num den ≤ num / den + 1 := by
  simp only [roundHalfEven]
  split <;> omega

theorem roundHalfEven_mono {num num' : Nat} (h : num ≤ num') (den : Nat) :
    roundHalfEven num den ≤ roundHalfEven num' den := by
  rcases Nat.lt_or_eq_of_le (Nat.div_le_div_right (c := den) h) with hlt | heq
  · calc roundHalfEven num den
      _ ≤ num / den + 1 := roundHalfEven_le num den
      _ ≤ num' / den := hlt
      _ ≤ roundHalfEven num' den := div_le_roundHalfEven num' den
  · -- in between the same two integers the remainders decide
    have hnum := Nat.div_add_mod num den
    have hnum' := Nat.div_add_mod num' den
    have hmod : num % den ≤ num' % den := by
      rw [heq] at hnum
      omega
    simp only [roundHalfEven, heq]
    split
    next => split <;> omega
    next habove =>
      have habove' : compare (2 * (num' % den)) den = .gt := by
        rw [Nat.compare_eq_gt] at habove ⊢
        omega
      rw [habove']
    next hhalf =>
      rw [Nat.compare_eq_eq] at hhalf
      split
      next hbelow =>
        rw [Nat.compare_eq_lt] at hbelow
        omega
      next => omega
      next => exact Nat.le_refl _

/-- The significand of a quotient is below the end of its binade, and in every binade but the
first it is not below its start. -/
theorem significand_bounds (quotient : Nat) :
    let binade := quotient.log2 - 52
    quotient / 2 ^ binade < 2 ^ 53 ∧ (0 < binade → 2 ^ 52 ≤ quotient / 2 ^ binade) := by
  intro binade
  have hpos : 0 < 2 ^ binade := Nat.two_pow_pos binade
  constructor
  · rw [Nat.div_lt_iff_lt_mul hpos, ← Nat.pow_add]
    have hlt : quotient < 2 ^ (quotient.log2 + 1) := Nat.lt_log2_self
    exact Nat.lt_of_lt_of_le hlt (Nat.pow_le_pow_right (by decide) (by omega))
  · intro hbinade
    rw [Nat.le_div_iff_mul_le hpos, ← Nat.pow_add]
    have hne : quotient ≠ 0 := by
      rintro rfl
      simp [binade] at hbinade
    have hle : 2 ^ quotient.log2 ≤ quotient := Nat.log2_self_le hne
    rwa [show 52 + binade = quotient.log2 by omega]

theorem log2_mono {m m' : Nat} (h : m ≤ m') : m.log2 ≤ m'.log2 := by
  rcases Nat.eq_zero_or_pos m with rfl | hpos
  · exact Nat.zero_le _
  · exact (Nat.le_log2 (by omega)).2 (Nat.le_trans (Nat.log2_self_le (by omega)) h)

theorem nearestMagnitude_mono {num num' : Nat} (h : num ≤ num') (den : Nat) :
    nearestMagnitude num den ≤ nearestMagnitude num' den := by
  have hquotient : num / den ≤ num' / den := Nat.div_le_div_right h
  obtain ⟨htop, -⟩ := significand_bounds (num / den)
  obtain ⟨-, hbottom⟩ := significand_bounds (num' / den)
  simp only [nearestMagnitude, Nat.shiftLeft_eq]
  generalize hb : (num / den).log2 - 52 = binade at htop
  generalize hb' : (num' / den).log2 - 52 = binade' at hbottom
  refine Nat.le_min.2 ⟨Nat.min_le_left _ _, Nat.le_trans (Nat.min_le_right _ _) ?_⟩
  have hbinades : binade ≤ binade' := by
    rw [← hb, ← hb']
    exact Nat.sub_le_sub_right (log2_mono hquotient) 52
  rcases Nat.lt_or_eq_of_le hbinades with hlt | rfl
  · -- the end of a binade is no further than the start of a higher one
    have hsmall := roundHalfEven_le num (den * 2 ^ binade)
    have hlarge := div_le_roundHalfEven num' (den * 2 ^ binade')
    rw [← Nat.div_div_eq_div_mul] at hsmall hlarge
    have hstart := hbottom (Nat.zero_lt_of_lt hlt)
    omega
  · exact Nat.add_le_add_left (roundHalfEven_mono h _) _

/-! ## Products -/

theorem units_nearest_mono {num num' : Nat} (h : num ≤ num') (den : Nat) :
    (nearest false num den).units ≤ (nearest false num' den).units :=
  unitsOf_mono (nearestMagnitude_mono (Nat.mul_le_mul_right one h) den)

/-- A product is finite if one of greater factors is. -/
theorem isFinite_mul_of_le {x x' y y' : Binary64} (hx : x.units ≤ x'.units)
    (hy : y.units ≤ y'.units) (h : (x'.mul y').isFinite = true) : (x.mul y).isFinite = true := by
  have hproduct : (x.mul y).magnitude ≤ (x'.mul y').magnitude :=
    nearestMagnitude_mono (Nat.mul_le_mul_right one (Nat.mul_le_mul hx hy)) _
  exact decide_eq_true (Nat.lt_of_le_of_lt hproduct (of_decide_eq_true h))

end Rulebook.Binary64
