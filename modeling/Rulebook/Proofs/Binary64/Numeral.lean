import Rulebook.Binary64.Decimal
import Rulebook.Proofs.Binary64.Moderate
import Rulebook.Proofs.Json.Float

/-!
# The number nearest to a numeral

A numeral stands for the number that is nearest to its exact value (`Numeral.nearest`).  Whether a
number is written with all its places or as a power of ten, the numeral has the value of the
shortest decimal, which rounds to the number.  So every finite number is the one nearest to its
numeral, in all styles (`Binary64.nearest_numeral`).
-/

namespace Rulebook

/-- The number nearest to a written numeral. -/
def Numeral.nearest (n : Numeral) : Binary64 :=
  .ofDecimal n.negative (digitsValue (n.whole ++ n.fraction))
    (Json.exponentValue n.exponent - n.fraction.length)

/-- Without a power of ten this is a quotient by the power of ten of the digits after the point. -/
theorem Numeral.nearest_of_exponent {n : Numeral} (h : n.exponent = none) :
    n.nearest = .nearest n.negative (digitsValue (n.whole ++ n.fraction))
      (10 ^ n.fraction.length) := by
  have hone : Nat.pow 10 0 = 1 := rfl
  rw [nearest, h, Json.exponentValue, Int.zero_sub, Binary64.ofDecimal, Int.neg_neg,
    Int.toNat_natCast, Int.toNat_neg_natCast, hone, Nat.mul_one, Nat.pow_eq]

namespace Binary64

/-- A decimal as a power of ten rounds to what the decimal is the shortest of. -/
theorem roundsTo_scientific (tie : Tie) {magnitude : Nat} (h : 0 < magnitude) :
    let d := shortest tie magnitude
    let power := d.point - d.digits.length
    RoundsTo (Numeral.digitsValue d.digits * Nat.pow 10 power.toNat * one)
      (Nat.pow 10 (-power).toNat) magnitude := by
  intro d power
  refine roundsTo_of_value_eq tie h (pow_ten_pos _) fun n hn => ?_
  have hpower : power = n - (scale : Int) := hn
  have hplaces : power.toNat + scale = n + (-power).toNat := by omega
  rw [Nat.pow_eq, Nat.pow_eq, Nat.mul_assoc, ← Nat.pow_add, hplaces, Nat.pow_add, Nat.mul_assoc]

variable {magnitude : Nat}

theorem magnitude_nearest_positional (tie : Tie) (hpos : 0 < magnitude)
    (hfinite : magnitude < infiniteMagnitude) (negative : Bool) :
    ((shortest tie magnitude).positional negative).nearest.magnitude = magnitude := by
  rw [Numeral.nearest_of_exponent rfl]
  exact (roundsTo_positional tie hpos negative).nearestMagnitude_eq (pow_ten_pos _)
    (Nat.le_of_lt hfinite)

theorem magnitude_nearest_scientific (tie : Tie) (hpos : 0 < magnitude)
    (hfinite : magnitude < infiniteMagnitude) (negative plus : Bool) :
    ((shortest tie magnitude).scientific negative plus).nearest.magnitude = magnitude := by
  have hround := roundsTo_scientific tie hpos
  have hlength := List.length_pos_of_ne_nil (digits_shortest_ne_nil tie hpos)
  generalize shortest tie magnitude = d at hround hlength ⊢
  have hdigits : (d.scientific negative plus).whole ++ (d.scientific negative plus).fraction =
      d.digits := List.take_append_drop 1 d.digits
  have hpower : Json.exponentValue (d.scientific negative plus).exponent -
      (d.scientific negative plus).fraction.length = d.point - d.digits.length := by
    rw [Decimal.scientific, Json.exponentValue_ofInt, List.length_drop]
    omega
  rw [Numeral.nearest, hpower, hdigits]
  exact hround.nearestMagnitude_eq (pow_ten_pos _) (Nat.le_of_lt hfinite)

/-- A finite number is the number nearest to its numeral. -/
theorem nearest_numeral (style : FloatStyle) {x : Binary64} (hx : x.isFinite = true) :
    (x.numeral style).nearest = x := by
  have hfinite : x.magnitude < infiniteMagnitude := of_decide_eq_true hx
  have hnegative : (x.numeral style).nearest.negative = x.negative := negative_numeral style x
  have hmagnitude : (x.numeral style).nearest.magnitude = x.magnitude := by
    rw [numeral]
    split
    next hzero =>
      have hnone : nearestMagnitude (Numeral.digitsValue (['0'] ++ ['0']) * one) (10 ^ 1) = 0 := by
        decide
      rw [hzero, Numeral.nearest_of_exponent rfl]
      exact hnone
    next hne =>
      have hpos : 0 < x.magnitude := Nat.pos_of_ne_zero hne
      simp only
      split
      next => exact magnitude_nearest_positional style.tie hpos hfinite x.negative
      next => exact magnitude_nearest_scientific style.tie hpos hfinite x.negative style.plus
  generalize (x.numeral style).nearest = y at hnegative hmagnitude
  obtain ⟨negative, magnitude, hlt⟩ := x
  obtain ⟨negative', magnitude', hlt'⟩ := y
  obtain rfl : negative' = negative := hnegative
  obtain rfl : magnitude' = magnitude := hmagnitude
  rfl

/-- So a moderate number is the one nearest to its digits with all their places. -/
theorem IsModerate.nearest_numeral {x : Binary64} (hx : x.isFinite = true) (h : x.IsModerate) :
    let n := x.numeral .rule
    nearest x.negative (Numeral.digitsValue (n.whole ++ n.fraction)) (10 ^ n.fraction.length) =
      x := by
  intro n
  have hexponent : n.exponent = none := (exponent_numeral_eq_none_iff hx).2 h
  rw [← negative_numeral .rule x, ← Numeral.nearest_of_exponent hexponent]
  exact Binary64.nearest_numeral .rule hx

end Binary64

end Rulebook
