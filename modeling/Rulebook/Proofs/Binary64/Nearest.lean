import Rulebook.Proofs.Binary64.Rounding

/-!
# Which quotients round to a number

A quotient rounds to the magnitude between whose midpoints to its neighbours it lies, and on a
midpoint to the even one of the two neighbours (`RoundsTo`).  Every quotient does so
(`exists_roundsTo`), and to one magnitude only, since midpoints grow (`RoundsTo.unique`).  So
the nearest magnitude is the one that a quotient rounds to (`RoundsTo.nearestMagnitude_eq`); in
particular the size of a number rounds to this number (`nearestMagnitude_unitsOf`).
-/

namespace Rulebook.Binary64

theorem unitsOf_strictMono : StrictMono unitsOf := by
  refine strictMono_nat_of_lt_succ fun m => ?_
  rw [unitsOf_succ]
  exact Nat.lt_add_of_pos_right (spacing_pos m)

theorem unitsOf_zero : unitsOf 0 = 0 := rfl

theorem one_pos : 0 < one := by decide +kernel

/-- The size of the magnitude with a significand in a binade.  The significand `2 ^ 53` is the
start of the next binade. -/
theorem unitsOf_significand {binade significand : Nat} (hle : significand ≤ 2 ^ 53)
    (hbinade : 0 < binade → 2 ^ 52 ≤ significand) :
    unitsOf (binade * 2 ^ 52 + significand) = significand * 2 ^ binade := by
  rcases Nat.lt_or_ge significand (2 ^ 52) with hlt | hge
  · obtain rfl : binade = 0 := by omega
    rw [Nat.zero_mul, Nat.zero_add, Nat.pow_zero, Nat.mul_one]
    exact if_pos hlt
  rcases Nat.lt_or_eq_of_le hle with hlt | rfl
  · have hdiv : (binade * 2 ^ 52 + significand) / 2 ^ 52 = binade + 1 := by omega
    have hmod : 2 ^ 52 + (binade * 2 ^ 52 + significand) % 2 ^ 52 = significand := by omega
    rw [unitsOf_of_binade hdiv, hmod]
  · have hdiv : (binade * 2 ^ 52 + 2 ^ 53) / 2 ^ 52 = binade + 1 + 1 := by omega
    have hmod : (binade * 2 ^ 52 + 2 ^ 53) % 2 ^ 52 = 0 := by omega
    rw [unitsOf_of_binade hdiv, hmod]
    ring

/-- Significands of up to 53 binary digits have a magnitude in every binade. -/
theorem exists_unitsOf (binade : Nat) {significand : Nat} (hle : significand ≤ 2 ^ 53) :
    ∃ m, m ≤ binade * 2 ^ 52 + 2 ^ 53 ∧ unitsOf m = significand * 1 <<< binade := by
  rw [Nat.one_shiftLeft]
  induction binade generalizing significand with
  | zero =>
      have hunits := @unitsOf_significand 0 _ hle fun h => absurd h (Nat.lt_irrefl 0)
      exact ⟨0 * 2 ^ 52 + significand, Nat.add_le_add_left hle _, hunits⟩
  | succ binade ih =>
      by_cases hlow : 2 ^ 52 ≤ significand
      · have hunits := @unitsOf_significand (binade + 1) _ hle fun _ => hlow
        exact ⟨(binade + 1) * 2 ^ 52 + significand, Nat.add_le_add_left hle _, hunits⟩
      · -- a small significand is a greater one in a lower binade
        obtain ⟨m, hm, hunits⟩ := @ih (2 * significand) (by omega)
        have hbound : binade * 2 ^ 52 ≤ (binade + 1) * 2 ^ 52 :=
          Nat.mul_le_mul_right _ (Nat.le_add_right binade 1)
        refine ⟨m, Nat.le_trans hm (Nat.add_le_add_right hbound _), ?_⟩
        rw [hunits, Nat.pow_succ]
        ring

/-! ## Midpoints -/

/-- The midpoint between a magnitude and the next one, in halves of a unit. -/
def midpoint (m : Nat) : Nat := unitsOf m + unitsOf (m + 1)

theorem midpoint_strictMono : StrictMono midpoint := fun _ _ h =>
  Nat.add_lt_add (unitsOf_strictMono h) (unitsOf_strictMono (Nat.succ_lt_succ h))

theorem two_mul_unitsOf_lt (m : Nat) : 2 * unitsOf m < midpoint m := by
  have hlt := unitsOf_strictMono (Nat.lt_add_one m)
  rw [midpoint]
  omega

theorem midpoint_lt (m : Nat) : midpoint m < 2 * unitsOf (m + 1) := by
  have hlt := unitsOf_strictMono (Nat.lt_add_one m)
  rw [midpoint]
  omega

/-- The quotient `num / den`, in units, lies between the midpoints around a magnitude; on one
of them only if the magnitude is even. -/
structure RoundsTo (num den m : Nat) : Prop where
  /-- The quotient is not below the lower midpoint. -/
  low : ∀ k, m = k + 1 → midpoint k * den < 2 * num ∨ midpoint k * den = 2 * num ∧ m % 2 = 0
  /-- It is not above the upper midpoint. -/
  high : 2 * num < midpoint m * den ∨ 2 * num = midpoint m * den ∧ m % 2 = 0

variable {num den m : Nat}

/-- A quotient is not on both sides of a midpoint. -/
theorem RoundsTo.not_lt {m' : Nat} (h : RoundsTo num den m) (h' : RoundsTo num den m')
    (hden : 0 < den) : ¬ m < m' := by
  intro hlt
  obtain ⟨k, rfl⟩ := Nat.exists_eq_add_of_lt hlt
  have hmid : midpoint m * den ≤ midpoint (m + k) * den :=
    Nat.mul_le_mul_right _ (midpoint_strictMono.monotone (Nat.le_add_right m k))
  rcases h.high with hhigh | ⟨hhigh, heven⟩ <;>
    rcases h'.low (m + k) rfl with hlow | ⟨hlow, heven'⟩
  · omega
  · omega
  · omega
  · -- the quotient is one midpoint, and its two neighbours cannot both be even
    have hsame : midpoint m = midpoint (m + k) :=
      Nat.eq_of_mul_eq_mul_right hden (hhigh.symm.trans hlow.symm)
    have hk := midpoint_strictMono.injective hsame
    omega

theorem RoundsTo.unique {m' : Nat} (h : RoundsTo num den m) (h' : RoundsTo num den m')
    (hden : 0 < den) : m = m' :=
  Nat.le_antisymm (Nat.not_lt.1 (h'.not_lt h hden)) (Nat.not_lt.1 (h.not_lt h' hden))

/-- What a quotient rounds to does not depend on how the quotient is written. -/
theorem RoundsTo.congr {num' den' : Nat} (h : RoundsTo num den m) (hden : 0 < den)
    (hden' : 0 < den') (heq : num * den' = num' * den) : RoundsTo num' den' m := by
  have hleft (a : Nat) : a * den * den' = a * den' * den := Nat.mul_right_comm a den den'
  have hright : 2 * num * den' = 2 * num' * den := by rw [Nat.mul_assoc, heq, Nat.mul_assoc]
  have hlt (a : Nat) : a * den < 2 * num ↔ a * den' < 2 * num' := by
    rw [← Nat.mul_lt_mul_right hden', hleft, hright, Nat.mul_lt_mul_right hden]
  have hgt (a : Nat) : 2 * num < a * den ↔ 2 * num' < a * den' := by
    rw [← Nat.mul_lt_mul_right hden', hleft, hright, Nat.mul_lt_mul_right hden]
  have hsame (a : Nat) : a * den = 2 * num ↔ a * den' = 2 * num' := by
    rw [← Nat.mul_left_inj hden'.ne', hleft, hright, Nat.mul_left_inj hden.ne']
  constructor
  · intro k hk
    rw [← hlt, ← hsame]
    exact h.low k hk
  · rw [← hgt, eq_comm, ← hsame, eq_comm]
    exact h.high

/-! ## The nearest magnitude -/

/-- The integer nearest to a quotient is the one below, or the next one; half way between the
two the even one. -/
theorem roundHalfEven_cases (num den : Nat) :
    (roundHalfEven num den = num / den ∧
        (2 * (num % den) < den ∨ 2 * (num % den) = den ∧ num / den % 2 = 0)) ∨
      (roundHalfEven num den = num / den + 1 ∧
        (den < 2 * (num % den) ∨ 2 * (num % den) = den ∧ (num / den + 1) % 2 = 0)) := by
  simp only [roundHalfEven]
  split
  next hlt =>
    rw [Nat.compare_eq_lt] at hlt
    exact .inl ⟨rfl, .inl hlt⟩
  next hgt =>
    rw [Nat.compare_eq_gt] at hgt
    exact .inr ⟨rfl, .inl hgt⟩
  next heq =>
    rw [Nat.compare_eq_eq] at heq
    rcases Nat.mod_two_eq_zero_or_one (num / den) with hmod | hmod
    · exact .inl ⟨by rw [hmod, Nat.add_zero], .inr ⟨heq, hmod⟩⟩
    · exact .inr ⟨by rw [hmod], .inr ⟨heq, by omega⟩⟩

/-- Every quotient rounds to some magnitude, which is the nearest one unless it is too large. -/
theorem exists_roundsTo (num : Nat) (hden : 0 < den) :
    ∃ m, RoundsTo num den m ∧ nearestMagnitude num den = min infiniteMagnitude m := by
  obtain ⟨htop, hbottom⟩ := significand_bounds (num / den)
  generalize hb : (num / den).log2 - 52 = binade at htop hbottom
  rw [Nat.div_div_eq_div_mul] at htop hbottom
  have hnearest : nearestMagnitude num den = min infiniteMagnitude
      (binade * 2 ^ 52 + roundHalfEven num (den * 2 ^ binade)) := by
    simp only [nearestMagnitude, hb, Nat.shiftLeft_eq]
  refine ⟨_, ?_, hnearest⟩
  have hnum := Nat.div_add_mod num (den * 2 ^ binade)
  have hcases := roundHalfEven_cases num (den * 2 ^ binade)
  have hstep : 0 < den * 2 ^ binade := Nat.mul_pos hden (Nat.two_pow_pos binade)
  have hmod := Nat.mod_lt num hstep
  generalize num / (den * 2 ^ binade) = s at *
  generalize num % (den * 2 ^ binade) = r at *
  generalize roundHalfEven num (den * 2 ^ binade) = rounded at *
  have hbelow : unitsOf (binade * 2 ^ 52 + s) * den = den * 2 ^ binade * s := by
    rw [unitsOf_significand (Nat.le_of_lt htop) hbottom]
    ring
  have habove : unitsOf (binade * 2 ^ 52 + s + 1) * den =
      den * 2 ^ binade * s + den * 2 ^ binade := by
    have hnext : s + 1 ≤ 2 ^ 53 := htop
    rw [Nat.add_assoc, unitsOf_significand hnext fun h => Nat.le_succ_of_le (hbottom h)]
    ring
  have hmidpoint : midpoint (binade * 2 ^ 52 + s) * den =
      2 * (den * 2 ^ binade * s) + den * 2 ^ binade := by
    rw [midpoint, Nat.add_mul, hbelow, habove]
    ring
  rcases hcases with ⟨rfl, hhalf⟩ | ⟨rfl, hhalf⟩
  · constructor
    · intro k hk
      have hlow := Nat.mul_lt_mul_of_pos_right (midpoint_lt k) hden
      rw [← hk, Nat.mul_assoc, hbelow] at hlow
      left
      omega
    · rw [hmidpoint]
      omega
  · constructor
    · intro k hk
      obtain rfl : k = binade * 2 ^ 52 + s := by omega
      rw [hmidpoint]
      omega
    · have hhigh := Nat.mul_lt_mul_of_pos_right (two_mul_unitsOf_lt (binade * 2 ^ 52 + s + 1)) hden
      rw [Nat.mul_assoc, habove] at hhigh
      rw [← Nat.add_assoc]
      left
      omega

/-- The nearest magnitude of a quotient is the one that it rounds to. -/
theorem RoundsTo.nearestMagnitude_eq (h : RoundsTo num den m) (hden : 0 < den)
    (hm : m ≤ infiniteMagnitude) : nearestMagnitude num den = m := by
  obtain ⟨m', hm', hnearest⟩ := exists_roundsTo num hden
  obtain rfl := h.unique hm' hden
  rw [hnearest, Nat.min_eq_right hm]

/-- A size rounds to its own magnitude. -/
theorem roundsTo_unitsOf (m : Nat) (hden : 0 < den) : RoundsTo (unitsOf m * den) den m where
  low := by
    rintro k rfl
    rw [← Nat.mul_assoc]
    exact .inl (Nat.mul_lt_mul_of_pos_right (midpoint_lt k) hden)
  high := by
    rw [← Nat.mul_assoc]
    exact .inl (Nat.mul_lt_mul_of_pos_right (two_mul_unitsOf_lt m) hden)

/-- The magnitude nearest to a size is its own. -/
theorem nearestMagnitude_unitsOf (hm : m ≤ infiniteMagnitude) (hden : 0 < den) :
    nearestMagnitude (unitsOf m * den) den = m :=
  (roundsTo_unitsOf m hden).nearestMagnitude_eq hden hm

end Rulebook.Binary64
