import Rulebook.Proofs.Json.Number

/-!
# Finite numbers are read

Reading refuses a floating-point number only if its significand times its power of ten is too
large (`isSome_scaled?`).  The numeral that JSON texts have for a finite number never is
(`Binary64.isSome_number?_numeral`).  With all its places it is moderate.  As a power of ten it
has at most seventeen digits, and lies in the interval of the number: so it is below a bound
for which reading is computed, one power of ten after the other, unless the number is the
greatest one.
-/

namespace Rulebook

open Json

namespace Json

/-! ## Significands -/

theorem length_gather_le (significand : Nat) (digits : List Char) :
    (gather significand digits).2.length ≤ digits.length := by
  induction digits generalizing significand with
  | nil => exact Nat.le_refl _
  | cons d rest ih =>
      rw [gather]
      split
      next => exact Nat.le_succ_of_le (ih _)
      next => exact Nat.le_refl _

theorem exponentValue_ofInt (plus : Bool) (e : Int) :
    exponentValue (some (.ofInt plus e)) = e := by
  have hvalue : Numeral.digitsValue (Nat.toDigits 10 e.natAbs) = e.natAbs :=
    Nat.ofDigitChars_ten_toDigits
  rw [Exponent.ofInt]
  split
  next hneg =>
    rw [exponentValue, hvalue]
    omega
  next hneg => cases plus <;> simp [exponentValue, hvalue] <;> omega

/-- Only a number that is too large is refused. -/
theorem isSome_scaled? {significand : Nat} {power : Int}
    (h : 0 ≤ power → power.natAbs ≤ maxPower ∧
      ((Binary64.ofNat significand).mul (powerOfTen power.natAbs)).isFinite = true) :
    (scaled? significand power).isSome = true := by
  rw [scaled?]
  simp only
  split
  next => rfl
  next =>
    split
    next hpower =>
      obtain ⟨hmax, hfinite⟩ := h hpower
      rw [if_pos hmax, if_pos hfinite]
      rfl
    next =>
      split
      next => rfl
      next => split <;> rfl

theorem isFinite_scaled_of_le {significand bound power limit : Nat} (hs : significand ≤ bound)
    (hp : power ≤ limit)
    (h : ((Binary64.ofNat bound).mul (powerOfTen limit)).isFinite = true) :
    ((Binary64.ofNat significand).mul (powerOfTen power)).isFinite = true :=
  Binary64.isFinite_mul_of_le (Binary64.units_nearest_mono hs 1)
    (Binary64.units_nearest_mono (Nat.pow_le_pow_right (by decide) hp) 1) h

end Json

/-! ## Numbers with all their places -/

/-- With few digits before the point and no power of ten, a numeral stands for a number. -/
theorem Numeral.isSome_number?_of_length {n : Numeral} (hfraction : n.fraction ≠ [])
    (hexponent : n.exponent = none) (hwhole : n.whole.length ≤ 16) :
    n.number?.isSome = true := by
  have hlimit : ((Binary64.ofNat (UInt64.size - 1)).mul (powerOfTen 16)).isFinite = true := by
    decide +kernel
  have hintegral : (gather 0 n.whole).1 < UInt64.size := gather_lt (by decide)
  have hsignificand : (gather (gather 0 n.whole).1 n.fraction).1 < UInt64.size :=
    gather_lt hintegral
  have hdropped := length_gather_le 0 n.whole
  have hempty : n.fraction.isEmpty = false := List.isEmpty_eq_false_iff.2 hfraction
  rw [number?]
  simp only [hempty, hexponent, Bool.false_and, Bool.false_eq_true, if_false,
    Option.isSome_map, exponentValue]
  refine isSome_scaled? fun hpower => ⟨?_, isFinite_scaled_of_le ?_ ?_ hlimit⟩
  · rw [maxPower]
    omega
  · omega
  · omega

/-! ## Powers of ten -/

namespace Binary64

/-- The significand and the power that a decimal with one digit before the point is read
as. -/
theorem Decimal.IsNormal.number?_scientific {d : Decimal} (h : d.IsNormal)
    (hdigits : Numeral.digitsValue d.digits < UInt64.size) (negative plus : Bool) :
    (d.scientific negative plus).number? =
      (scaled? (Numeral.digitsValue d.digits) (d.point - d.digits.length)).map
        fun x => .float (Json.signed negative x) := by
  obtain ⟨-, c, rest, hc, -⟩ := h
  rw [hc, Numeral.digitsValue] at hdigits
  have hfirst : Nat.ofDigitChars 10 [c] 0 < UInt64.size :=
    Nat.lt_of_le_of_lt (le_ofDigitChars _ rest) hdigits
  have hwhole : gather 0 [c] = (Nat.ofDigitChars 10 [c] 0, []) := gather_eq hfirst
  have hfraction : gather (Nat.ofDigitChars 10 [c] 0) rest =
      (Nat.ofDigitChars 10 (c :: rest) 0, []) :=
    gather_eq hdigits
  have hpower : (0 : Nat) - (rest.length : Int) + (d.point - 1) =
      d.point - (c :: rest).length := by
    rw [List.length_cons]
    omega
  rw [Numeral.number?]
  simp only [scientific, hc, List.take_succ_cons, List.take_zero, List.drop_succ_cons,
    List.drop_zero, hwhole, hfraction, Option.isNone_some, Bool.and_false, Bool.false_and,
    Bool.false_eq_true, if_false, List.length_nil, exponentValue_ofInt, Nat.sub_zero,
    Numeral.digitsValue, hpower]

/-- The first digits of a number above all others but the greatest one, which is
`1.7976931348623157e308`. -/
def nearGreatest : Nat := 1797693134862315609

theorem interval_lt_nearGreatest {magnitude : Nat} (h : magnitude + 1 < infiniteMagnitude) :
    4 * unitsOf magnitude + 2 * spacing magnitude < nearGreatest * 10 ^ 290 * quarters := by
  have hbound : 4 * unitsOf (infiniteMagnitude - 2) + 2 * spacing (infiniteMagnitude - 2) <
      nearGreatest * 10 ^ 290 * quarters := by decide +kernel
  have hle : magnitude ≤ infiniteMagnitude - 2 := by omega
  have hunits := unitsOf_mono hle
  have hspacing := spacing_mono hle
  omega

theorem lt_of_mul_pow_add_lt {a b m n : Nat} (h : a * 10 ^ (m + n) < b * 10 ^ m) :
    a * 10 ^ n < b := by
  rw [Nat.pow_add, Nat.mul_left_comm, Nat.mul_comm b] at h
  exact Nat.lt_of_mul_lt_mul_left h

/-- A significand of at most seventeen digits is read with any power of ten that keeps it below
that bound. -/
theorem isFinite_of_lt_nearGreatest {significand power : Nat} (hpos : 0 < significand)
    (hdigits : significand ≤ 10 ^ 17) (h : significand * 10 ^ power < nearGreatest * 10 ^ 290) :
    power ≤ maxPower ∧ ((ofNat significand).mul (powerOfTen power)).isFinite = true := by
  by_cases hlow : power ≤ 291
  · have hlimit : ((ofNat (10 ^ 17)).mul (powerOfTen 291)).isFinite = true := by decide +kernel
    exact ⟨Nat.le_trans hlow (by decide), isFinite_scaled_of_le hdigits hlow hlimit⟩
  · obtain ⟨k, rfl⟩ : ∃ k, power = 290 + (k + 2) := ⟨power - 292, by omega⟩
    -- from here on the greatest significand has fewer digits with each further power
    have hlimits : ∀ k < 17, ((ofNat (nearGreatest / 10 ^ (k + 2))).mul
        (powerOfTen (290 + (k + 2)))).isFinite = true := by
      decide +kernel
    have hproduct : significand * 10 ^ (k + 2) < nearGreatest := lt_of_mul_pow_add_lt h
    have hk : k + 2 < 19 := by
      have hpower : 10 ^ (k + 2) < 10 ^ 19 := calc
        10 ^ (k + 2) ≤ significand * 10 ^ (k + 2) := Nat.le_mul_of_pos_left _ hpos
        _ < nearGreatest := hproduct
        _ ≤ 10 ^ 19 := by decide
      exact (Nat.pow_lt_pow_iff_right (by decide)).1 hpower
    have hquotient : significand ≤ nearGreatest / 10 ^ (k + 2) :=
      (Nat.le_div_iff_mul_le (Nat.pow_pos (by decide))).2 (Nat.le_of_lt hproduct)
    refine ⟨?_, isFinite_scaled_of_le hquotient (Nat.le_refl _) (hlimits k (by omega))⟩
    rw [maxPower]
    omega

/-- The shortest decimal of a finite number is read with its power of ten. -/
theorem isSome_scaled?_shortest {magnitude : Nat} (hpos : 0 < magnitude)
    (hfinite : magnitude < infiniteMagnitude) :
    (scaled? (Numeral.digitsValue (shortest .even magnitude).digits)
      ((shortest .even magnitude).point - (shortest .even magnitude).digits.length)).isSome =
        true := by
  rcases Nat.lt_or_eq_of_le (Nat.succ_le_of_lt hfinite) with hlt | hgreatest
  · obtain ⟨power, hpower, hdigits, hin⟩ := shortest_spec .even hpos
    have hsignificand : 0 < Numeral.digitsValue (shortest .even magnitude).digits :=
      Span.pos_of_includes hpos hin
    rw [hpower]
    refine isSome_scaled? fun hnonneg => ?_
    obtain ⟨k, rfl⟩ : ∃ k, power = k + scale := ⟨power - scale, by omega⟩
    have hk : (((k + scale : Nat) : Int) - scale).natAbs = k := by omega
    rw [hk]
    have hunits := Nat.lt_of_le_of_lt (Span.mul_pow_le hin) (interval_lt_nearGreatest hlt)
    exact isFinite_of_lt_nearGreatest hsignificand hdigits (Nat.lt_of_mul_lt_mul_right hunits)
  · obtain rfl : magnitude = infiniteMagnitude - 1 := by omega
    decide +kernel

/-- The numeral that JSON texts have for a finite number stands for a number. -/
theorem isSome_number?_numeral {x : Binary64} (h : x.isFinite = true) :
    (x.numeral .json).number?.isSome = true := by
  rw [numeral]
  split
  next => cases x.negative <;> decide +kernel
  next hne =>
    have hpos := Nat.pos_of_ne_zero hne
    simp only
    split
    next hmoderate =>
      refine Numeral.isSome_number?_of_length (Decimal.fraction_positional_ne_nil _ _) rfl ?_
      have hpoint : (shortest FloatStyle.json.tie x.magnitude).point ≤ 15 + 1 := hmoderate.2
      rw [Decimal.length_whole_positional]
      omega
    next =>
      have hnormal := isNormal_shortest .even hpos
      obtain ⟨_, _, hdigits, _⟩ := shortest_spec .even hpos
      have hsize : Numeral.digitsValue (shortest .even x.magnitude).digits < UInt64.size :=
        Nat.lt_of_le_of_lt hdigits (by decide)
      rw [show FloatStyle.json.tie = .even from rfl, hnormal.number?_scientific hsize,
        Option.isSome_map]
      exact isSome_scaled?_shortest hpos (of_decide_eq_true h)

end Binary64

end Rulebook
