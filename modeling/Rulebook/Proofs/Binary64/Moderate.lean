import Rulebook.Proofs.Binary64.Layout
import Rulebook.Proofs.Binary64.Nearest

/-!
# Numbers with all their places

The decimals in the interval of a number round to it (`Span.roundsTo`).  Hence the place of the
point in the shortest decimal of a number shows whether the number is below a power of ten
(`lt_point_iff`).  Rule texts have zero and the numbers from `0.0001` to below `10 ^ 16` with
all their places, and all others as powers of ten (`exponent_numeral_eq_none_iff`).  What is
written with all its places is the shortest decimal of the number, so the number nearest to it
is the number itself (`IsModerate.nearest_numeral`).
-/

namespace Rulebook.Binary64

/-! ## Intervals and midpoints -/

namespace Span

theorem high_of (magnitude : Nat) :
    (of magnitude).high = 2 * midpoint magnitude * Nat.pow 10 scale := by
  simp only [of, midpoint, unitsOf_succ]
  ring

/-- Below a power of two the numbers lie twice as close. -/
theorem spacing_succ (m : Nat) : spacing (m + 1) =
    if (m + 1) % 2 ^ 52 = 0 ∧ 2 ^ 52 < m + 1 then 2 * spacing m else spacing m := by
  rw [spacing_eq, spacing_eq]
  split
  next hpower =>
    have hbinade : (m + 1) / 2 ^ 52 - 1 = m / 2 ^ 52 - 1 + 1 := by omega
    rw [hbinade, Nat.pow_succ, Nat.mul_comm]
  next hpower =>
    have hbinade : (m + 1) / 2 ^ 52 - 1 = m / 2 ^ 52 - 1 := by omega
    rw [hbinade]

theorem low_of (m : Nat) : (of (m + 1)).low = 2 * midpoint m * Nat.pow 10 scale := by
  have hnext := unitsOf_succ m
  have hspacing := spacing_succ m
  simp only [of, midpoint, Bool.and_eq_true, beq_iff_eq, decide_eq_true_eq, Nat.one_shiftLeft]
  rw [Nat.mul_right_cancel_iff (pow_ten_pos scale)]
  split
  next hpower =>
    rw [if_pos hpower] at hspacing
    omega
  next hpower =>
    rw [if_neg hpower] at hspacing
    omega

/-- What lies in the interval of a number rounds to it. -/
theorem roundsTo {magnitude point : Nat} (h : (of magnitude).includes point = true) :
    RoundsTo point (4 * Nat.pow 10 scale) magnitude := by
  have hclosed : (of magnitude).closed = decide (magnitude % 2 = 0) := rfl
  have hquarters (a : Nat) : a * (4 * Nat.pow 10 scale) = 2 * (2 * a * Nat.pow 10 scale) := by ring
  have hends : ((of magnitude).low < point ∨ (of magnitude).low = point ∧ magnitude % 2 = 0) ∧
      (point < (of magnitude).high ∨ point = (of magnitude).high ∧ magnitude % 2 = 0) := by
    rw [includes, hclosed] at h
    split at h
    next heven =>
      simp only [Bool.and_eq_true, decide_eq_true_eq] at h heven
      omega
    next =>
      simp only [Bool.and_eq_true, decide_eq_true_eq] at h
      omega
  constructor
  · rintro k rfl
    rw [hquarters, ← low_of]
    omega
  · rw [hquarters, ← high_of]
    omega

end Span

/-! ## The place of the point -/

/-- The shortest decimal of a number rounds to it, and the place of its point shows between which
powers of ten it lies. -/
theorem exists_roundsTo_shortest (tie : Tie) {magnitude : Nat} (h : 0 < magnitude) :
    ∃ num places : Nat, RoundsTo num (4 * Nat.pow 10 scale) magnitude ∧
      (shortest tie magnitude).point = places - (scale : Int) ∧
      10 ^ (places - 1) * quarters ≤ num ∧ num < 10 ^ places * quarters := by
  obtain ⟨n, power, hshortest, -, hin⟩ := shortest_eq tie h
  have hlength : 0 < (Nat.toDigits 10 n).length := Nat.length_toDigits_pos
  refine ⟨_, power + (Nat.toDigits 10 n).length, Span.roundsTo hin, ?_, ?_, ?_⟩
  · rw [hshortest]
    rfl
  · have hfirst := pow_length_toDigits_le (Span.pos_of_includes h hin)
    rw [Nat.add_sub_assoc hlength, Nat.add_comm power, Nat.pow_add, Nat.mul_assoc]
    exact Nat.mul_le_mul_right _ hfirst
  · have hlast := lt_pow_length_toDigits n
    rw [Nat.add_comm power, Nat.pow_add, Nat.mul_assoc]
    exact Nat.mul_lt_mul_of_pos_right hlast (Nat.mul_pos (pow_ten_pos _) quarters_pos)

variable {magnitude : Nat}

/-- A number is below a power of ten exactly if its shortest decimal is, provided that this is so
for the number nearest to the power. -/
theorem lt_point_iff {tie : Tie} {power bound : Nat}
    (hbound : nearestMagnitude (10 ^ power * quarters) (4 * Nat.pow 10 scale) = bound)
    (hself : power - (scale : Int) < (shortest tie bound).point) (hpos : 0 < magnitude)
    (hfinite : magnitude < infiniteMagnitude) :
    power - (scale : Int) < (shortest tie magnitude).point ↔ bound ≤ magnitude := by
  obtain ⟨num, places, hround, hpoint, hlow, hhigh⟩ := exists_roundsTo_shortest tie hpos
  have hden : 0 < 4 * Nat.pow 10 scale := Nat.mul_pos (by decide) (pow_ten_pos scale)
  have hnearest := hround.nearestMagnitude_eq hden (Nat.le_of_lt hfinite)
  constructor
  · intro h
    have hplaces : power ≤ places - 1 := by omega
    rw [← hbound, ← hnearest]
    refine nearestMagnitude_mono (Nat.le_trans ?_ hlow) _
    exact Nat.mul_le_mul_right _ (Nat.pow_le_pow_right (by decide) hplaces)
  · intro h
    by_contra hnot
    have hplaces : places ≤ power := by omega
    have hle : magnitude ≤ bound := by
      rw [← hbound, ← hnearest]
      refine nearestMagnitude_mono (Nat.le_trans (Nat.le_of_lt hhigh) ?_) _
      exact Nat.mul_le_mul_right _ (Nat.pow_le_pow_right (by decide) hplaces)
    obtain rfl := Nat.le_antisymm hle h
    exact hnot hself

/-! ## Moderate numbers -/

/-- A finite number is zero, or it is from `0.0001` to below `10 ^ 16` in size. -/
def IsModerate (x : Binary64) : Prop :=
  x.units = 0 ∨ one ≤ 10 ^ 4 * x.units ∧ x.units < 10 ^ 16 * one

instance (x : Binary64) : Decidable x.IsModerate := inferInstanceAs (Decidable (_ ∨ _))

/-- The magnitude of `0.0001`. -/
def leastModerate : Nat := 0x3F1A36E2EB1C432D

/-- The magnitude of `10 ^ 16`. -/
def endModerate : Nat := 0x4341C37937E08000

theorem isModerate_iff {x : Binary64} :
    x.IsModerate ↔ x.magnitude = 0 ∨ leastModerate ≤ x.magnitude ∧ x.magnitude < endModerate := by
  have hbelow : 10 ^ 4 * unitsOf (leastModerate - 1) < one := by decide +kernel
  have hleast : one ≤ 10 ^ 4 * unitsOf leastModerate := by decide +kernel
  have hend : unitsOf endModerate = 10 ^ 16 * one := by decide +kernel
  rw [IsModerate, units]
  refine or_congr ?_ (and_congr ?_ ?_)
  · exact unitsOf_strictMono.injective.eq_iff' unitsOf_zero
  · constructor
    · intro h
      by_contra hlt
      have hle := unitsOf_mono (Nat.le_sub_one_of_lt (Nat.lt_of_not_le hlt))
      omega
    · intro h
      exact Nat.le_trans hleast (Nat.mul_le_mul_left _ (unitsOf_mono h))
  · rw [← hend, unitsOf_strictMono.lt_iff_lt]

/-- The numbers that rule texts have with all their places are the moderate ones. -/
theorem isModerate_iff_point {x : Binary64} (hx : x.isFinite = true) (hne : x.magnitude ≠ 0) :
    x.IsModerate ↔
      -4 < (shortest .up x.magnitude).point ∧ (shortest .up x.magnitude).point ≤ 15 + 1 := by
  have hpos : 0 < x.magnitude := Nat.pos_of_ne_zero hne
  have hfinite : x.magnitude < infiniteMagnitude := of_decide_eq_true hx
  have hlow : (396 : Nat) - (scale : Int) < (shortest .up x.magnitude).point ↔
      leastModerate ≤ x.magnitude :=
    lt_point_iff (by decide +kernel) (by decide +kernel) hpos hfinite
  have hhigh : (416 : Nat) - (scale : Int) < (shortest .up x.magnitude).point ↔
      endModerate ≤ x.magnitude :=
    lt_point_iff (by decide +kernel) (by decide +kernel) hpos hfinite
  rw [isModerate_iff, or_iff_right hne]
  rw [scale] at hlow hhigh
  omega

theorem exponent_numeral_eq_none_iff {x : Binary64} (hx : x.isFinite = true) :
    (x.numeral .rule).exponent = none ↔ x.IsModerate := by
  rw [numeral]
  split
  next hzero => exact iff_of_true rfl (isModerate_iff.2 (.inl hzero))
  next hne =>
    have hpoint := isModerate_iff_point hx hne
    simp only [FloatStyle.rule, ← hpoint]
    by_cases hmoderate : x.IsModerate
    · rw [if_pos hmoderate]
      exact iff_of_true rfl hmoderate
    · rw [if_neg hmoderate]
      exact iff_of_false (Option.some_ne_none _) hmoderate

/-! ## Reading back -/

namespace Decimal

variable {d : Decimal}

theorem positional_of_nonpos (hne : d.digits ≠ []) (h : d.point ≤ 0) (negative : Bool) :
    d.positional negative =
      ⟨negative, ['0'], List.replicate (-d.point).toNat '0' ++ d.digits, none⟩ := by
  have hpoint : d.point.toNat = 0 := Int.toNat_of_nonpos h
  simp [positional, hpoint, hne]

theorem positional_of_lt (hpos : 0 < d.point) (h : d.point < d.digits.length) (negative : Bool) :
    d.positional negative =
      ⟨negative, d.digits.take d.point.toNat, d.digits.drop d.point.toNat, none⟩ := by
  have hfraction : (-d.point).toNat = 0 := by omega
  have hwhole : d.point.toNat - d.digits.length = 0 := by omega
  have htake : (d.digits.take d.point.toNat).isEmpty = false := by
    rw [List.isEmpty_eq_false_iff, ← List.length_pos_iff, List.length_take]
    omega
  have hdrop : (d.digits.drop d.point.toNat).isEmpty = false := by
    rw [List.isEmpty_eq_false_iff, ← List.length_pos_iff, List.length_drop]
    omega
  simp [positional, hfraction, hwhole, htake, hdrop]

theorem positional_of_le (hne : d.digits ≠ []) (h : d.digits.length ≤ d.point) (negative : Bool) :
    d.positional negative = ⟨negative,
      d.digits ++ List.replicate (d.point.toNat - d.digits.length) '0', ['0'], none⟩ := by
  have hfraction : (-d.point).toNat = 0 := by omega
  have hlength : d.digits.length ≤ d.point.toNat := by omega
  simp [positional, hfraction, List.take_of_length_le hlength, List.drop_eq_nil_of_le hlength, hne]

/-- The digits of a decimal with all its places are those of the decimal, with zeros before and
after them. -/
theorem whole_append_fraction (hne : d.digits ≠ []) (negative : Bool) :
    ∃ before after : Nat, (d.positional negative).whole ++ (d.positional negative).fraction =
        List.replicate before '0' ++ (d.digits ++ List.replicate after '0') ∧
      ((d.positional negative).fraction.length : Int) = d.digits.length - d.point + after := by
  rcases Int.lt_or_le 0 d.point with hpos | hnonpos
  · rcases Int.lt_or_le d.point d.digits.length with hlt | hle
    · rw [positional_of_lt hpos hlt]
      refine ⟨0, 0, by simp, ?_⟩
      rw [List.length_drop]
      omega
    · rw [positional_of_le hne hle]
      refine ⟨0, d.point.toNat - d.digits.length + 1, ?_, ?_⟩
      · simp [List.replicate_succ']
      · simp only [List.length_singleton]
        omega
  · rw [positional_of_nonpos hne hnonpos]
    refine ⟨(-d.point).toNat + 1, 0, ?_, ?_⟩
    · simp [List.replicate_succ]
    · rw [List.length_append, List.length_replicate]
      omega

/-- So they have the value of the decimal. -/
theorem digitsValue_positional (hne : d.digits ≠ []) (negative : Bool) {power : Nat}
    (hpower : d.point - d.digits.length = power - (scale : Int)) :
    let n := d.positional negative
    Numeral.digitsValue (n.whole ++ n.fraction) * 10 ^ scale =
      Numeral.digitsValue d.digits * 10 ^ power * 10 ^ n.fraction.length := by
  obtain ⟨before, after, hdigits, hlength⟩ := whole_append_fraction hne negative
  have hplaces : power + (d.positional negative).fraction.length = after + scale := by omega
  simp only
  rw [Nat.mul_assoc, ← Nat.pow_add, hplaces, hdigits, Numeral.digitsValue, Numeral.digitsValue,
    Nat.ofDigitChars_append, Nat.ofDigitChars_replicate_zero, Nat.ofDigitChars_append,
    Nat.ofDigitChars_replicate_zero, Nat.mul_zero, Nat.pow_add]
  ring

end Decimal

/-- A quotient with the value of the shortest decimal of a number rounds to the number. -/
theorem roundsTo_of_value_eq (tie : Tie) {magnitude : Nat} (h : 0 < magnitude) {num den : Nat}
    (hden : 0 < den)
    (hvalue : ∀ power : Nat,
      (shortest tie magnitude).point - (shortest tie magnitude).digits.length =
        power - (scale : Int) →
      num * 10 ^ scale =
        Numeral.digitsValue (shortest tie magnitude).digits * 10 ^ power * den) :
    RoundsTo (num * one) den magnitude := by
  obtain ⟨power, hpower, -, hin⟩ := shortest_spec tie h
  refine (Span.roundsTo hin).congr (Nat.mul_pos (by decide) (pow_ten_pos scale)) hden ?_
  calc _ = 4 * one * (Numeral.digitsValue (shortest tie magnitude).digits * 10 ^ power * den) := by
          rw [quarters]; ring
    _ = 4 * one * (num * 10 ^ scale) := by rw [hvalue power hpower]
    _ = _ := by rw [Nat.pow_eq]; ring

theorem digits_shortest_ne_nil (tie : Tie) {magnitude : Nat} (h : 0 < magnitude) :
    (shortest tie magnitude).digits ≠ [] := by
  obtain ⟨-, c, rest, hdigits, -⟩ := isNormal_shortest tie h
  rw [hdigits]
  exact List.cons_ne_nil _ _

/-- A decimal with all its places rounds to what the decimal is the shortest of. -/
theorem roundsTo_positional (tie : Tie) {magnitude : Nat} (h : 0 < magnitude) (negative : Bool) :
    let n := (shortest tie magnitude).positional negative
    RoundsTo (Numeral.digitsValue (n.whole ++ n.fraction) * one) (10 ^ n.fraction.length)
      magnitude :=
  roundsTo_of_value_eq tie h (pow_ten_pos _) fun _ hpower =>
    Decimal.digitsValue_positional (digits_shortest_ne_nil tie h) negative hpower

end Rulebook.Binary64
