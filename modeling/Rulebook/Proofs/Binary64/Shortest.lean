import Mathlib.Data.List.DropRight
import Rulebook.Binary64.Shortest
import Rulebook.Numeral
import Rulebook.Proofs.Binary64.Rounding

/-!
# Seventeen digits suffice

The interval of the decimals that round to a number is wider than the step of the grid of
decimals with seventeen digits (`Span.centre_lt_width`), so one of the two neighbours on this
grid lies in it (`Span.exists_onGrid`).  Hence the search for the shortest decimal always ends
on a grid, with a decimal of at most seventeen digits in the interval (`shortest_eq`), and
stripping the zeros at its end leaves its value as it is (`Decimal.ofScaled_eq`).
-/

namespace Rulebook.Binary64

theorem pow_ten_pos (n : Nat) : 0 < Nat.pow 10 n := Nat.pow_pos (by decide)

theorem lt_pow_length_toDigits (n : Nat) : n < 10 ^ (Nat.toDigits 10 n).length :=
  (Nat.length_toDigits_le_iff (by decide) Nat.length_toDigits_pos).1 (Nat.le_refl _)

theorem pow_length_toDigits_le {n : Nat} (h : 0 < n) :
    10 ^ ((Nat.toDigits 10 n).length - 1) ≤ n := by
  cases hmore : (Nat.toDigits 10 n).length - 1 with
  | zero => exact h
  | succ more =>
      rw [← Nat.not_lt, ← Nat.length_toDigits_le_iff (by decide) (Nat.succ_pos more)]
      omega

/-! ## Intervals -/

namespace Span

theorem le_of_includes {s : Span} {point : Nat} (h : s.includes point = true) :
    s.low ≤ point ∧ point ≤ s.high := by
  rw [includes] at h
  split at h <;> simp only [Bool.and_eq_true, decide_eq_true_eq] at h <;> omega

theorem includes_of_lt {s : Span} {point : Nat} (hlow : s.low < point) (hhigh : point < s.high) :
    s.includes point = true := by
  rw [includes]
  split <;> simp only [Bool.and_eq_true, decide_eq_true_eq] <;> omega

/-- A point that is found on a grid is in the interval, at or next to the number. -/
theorem of_onGrid {s : Span} {tie : Tie} {step n : Nat} (h : s.onGrid tie step = some n) :
    s.includes (n * step) = true ∧ n ≤ s.centre / step + 1 := by
  unfold onGrid at h
  simp only at h
  split at h
  next => cases h
  next hbelow _ =>
    cases h
    exact ⟨hbelow, Nat.le_succ _⟩
  next _ habove =>
    cases h
    exact ⟨habove, Nat.le_refl _⟩
  next hbelow habove =>
    have heither : n = s.centre / step ∨ n = s.centre / step + 1 := by
      split at h
      next =>
        cases h
        exact .inl rfl
      next =>
        cases h
        exact .inr rfl
      next =>
        cases tie with
        | up =>
            cases h
            exact .inr rfl
        | even =>
            cases h
            rcases Nat.mod_two_eq_zero_or_one (s.centre / step) with hmod | hmod
            · exact .inl (by rw [hmod, Nat.add_zero])
            · exact .inr (by rw [hmod])
    rcases heither with rfl | rfl
    · exact ⟨hbelow, Nat.le_succ _⟩
    · exact ⟨habove, Nat.le_refl _⟩

/-- If neither neighbour on a grid is in the interval, the step of the grid is as wide. -/
theorem high_le_of_onGrid {s : Span} {tie : Tie} {step : Nat} (hstep : 0 < step)
    (hlow : s.low < s.centre) (hhigh : s.centre < s.high) (h : s.onGrid tie step = none) :
    s.high ≤ s.low + step := by
  have hbelow : s.centre / step * step ≤ s.centre := Nat.div_mul_le_self _ _
  have habove : s.centre < (s.centre / step + 1) * step := by
    rw [Nat.mul_comm]
    exact Nat.lt_mul_div_succ _ hstep
  have hnext : (s.centre / step + 1) * step = s.centre / step * step + step := Nat.succ_mul _ _
  unfold onGrid at h
  simp only at h
  split at h
  next hnotBelow hnotAbove =>
    have hlow : ¬ s.low < s.centre / step * step := by
      intro hlt
      rw [includes_of_lt hlt (by omega)] at hnotBelow
      cases hnotBelow
    have hhigh : ¬ (s.centre / step + 1) * step < s.high := by
      intro hlt
      rw [includes_of_lt (by omega) hlt] at hnotAbove
      cases hnotAbove
    omega
  next => cases h
  next => cases h
  next =>
    split at h
    next => cases h
    next => cases h
    next => cases tie <;> cases h

/-! ### The interval of a magnitude -/

theorem low_pos {magnitude : Nat} (h : 0 < magnitude) : 0 < (of magnitude).low := by
  have hunits := spacing_le_unitsOf h
  have hspacing := spacing_pos magnitude
  simp only [of]
  refine Nat.mul_pos ?_ (pow_ten_pos scale)
  split <;> omega

theorem low_lt_centre {magnitude : Nat} (h : 0 < magnitude) :
    (of magnitude).low < (of magnitude).centre := by
  have hunits := spacing_le_unitsOf h
  have hspacing := spacing_pos magnitude
  simp only [of]
  refine Nat.mul_lt_mul_of_pos_right ?_ (pow_ten_pos scale)
  split <;> omega

theorem centre_lt_high (magnitude : Nat) : (of magnitude).centre < (of magnitude).high := by
  have hspacing := spacing_pos magnitude
  simp only [of]
  exact Nat.mul_lt_mul_of_pos_right (by omega) (pow_ten_pos scale)

/-- The size of a number is less than `10 ^ 16` times the width of its interval. -/
theorem centre_lt_width {magnitude : Nat} (h : 0 < magnitude) :
    10 ^ 16 * (of magnitude).low + (of magnitude).centre < 10 ^ 16 * (of magnitude).high := by
  have hunits := spacing_le_unitsOf h
  have hspacing := spacing_pos magnitude
  have hlt := unitsOf_lt magnitude
  simp only [of, ← Nat.mul_assoc, ← Nat.add_mul]
  refine Nat.mul_lt_mul_of_pos_right ?_ (pow_ten_pos scale)
  split
  next hpower =>
    -- the lower half of the interval is only half as wide
    simp only [Bool.and_eq_true, beq_iff_eq, decide_eq_true_eq] at hpower
    have heq := unitsOf_of_power hpower.1 hpower.2
    omega
  next => omega

/-- One of the neighbours on a grid of decimals with seventeen digits is in the interval. -/
theorem exists_onGrid {magnitude : Nat} (h : 0 < magnitude) (tie : Tie) {step : Nat}
    (hpos : 0 < step) (hstep : 10 ^ 16 * step ≤ (of magnitude).centre) :
    ∃ n, (of magnitude).onGrid tie step = some n := by
  cases hgrid : (of magnitude).onGrid tie step with
  | some n => exact ⟨n, rfl⟩
  | none =>
      have hwidth := centre_lt_width h
      have hnarrow := high_le_of_onGrid hpos (low_lt_centre h) (centre_lt_high magnitude) hgrid
      omega

end Span

/-! ## The search -/

/-- One is `4 * one` quarters of a unit. -/
def quarters : Nat := 4 * one

theorem quarters_pos : 0 < quarters := by decide +kernel

theorem Span.pos_of_includes {magnitude n m : Nat} (h : 0 < magnitude)
    (hin : (Span.of magnitude).includes (n * m) = true) : 0 < n :=
  Nat.pos_of_mul_pos_right (Nat.lt_of_lt_of_le (Span.low_pos h) (Span.le_of_includes hin).1)

/-- A decimal in the interval of a number is at most half a spacing greater. -/
theorem Span.mul_pow_le {magnitude n k : Nat}
    (hin : (Span.of magnitude).includes (n * (10 ^ (k + scale) * quarters)) = true) :
    n * 10 ^ k * quarters ≤ 4 * unitsOf magnitude + 2 * spacing magnitude := by
  have hhigh := (Span.le_of_includes hin).2
  simp only [Span.of, Nat.pow_eq, Nat.pow_add] at hhigh
  refine Nat.le_of_mul_le_mul_right (Nat.le_trans (Nat.le_of_eq ?_) hhigh)
    (Nat.pow_pos (by decide))
  ring

/-- How many digits stand before the point of a number times `10 ^ scale`. -/
def places (magnitude : Nat) : Nat :=
  (Nat.toDigits 10 ((Span.of magnitude).centre / quarters)).length

theorem lt_places {magnitude : Nat} (h : 0 < magnitude) : 16 < places magnitude := by
  have hunits : 0 < unitsOf magnitude :=
    Nat.lt_of_lt_of_le (spacing_pos _) (spacing_le_unitsOf h)
  have hscale : 10 ^ 16 * one ≤ Nat.pow 10 scale := by decide +kernel
  have hcentre : 10 ^ 16 ≤ (Span.of magnitude).centre / quarters := by
    rw [Nat.le_div_iff_mul_le quarters_pos]
    calc 10 ^ 16 * quarters
      _ = 4 * (10 ^ 16 * one) := by rw [quarters]; ring
      _ ≤ 4 * unitsOf magnitude * Nat.pow 10 scale :=
          Nat.mul_le_mul (by omega) hscale
  rw [places, ← Nat.not_le, Nat.length_toDigits_le_iff (by decide) (by decide)]
  exact Nat.not_lt_of_le hcentre

/-- Fewer than `10 ^ digits` steps of the grid of decimals with that many digits fit below a
number. -/
theorem div_step_lt (magnitude digits : Nat) :
    (Span.of magnitude).centre / (10 ^ (places magnitude - digits) * quarters) < 10 ^ digits := by
  have hstep : 0 < 10 ^ (places magnitude - digits) * quarters :=
    Nat.mul_pos (pow_ten_pos _) quarters_pos
  have hcentre : (Span.of magnitude).centre < 10 ^ places magnitude * quarters := by
    rw [← Nat.div_lt_iff_lt_mul quarters_pos]
    exact lt_pow_length_toDigits _
  rw [Nat.div_lt_iff_lt_mul hstep, ← Nat.mul_assoc, ← Nat.pow_add]
  refine Nat.lt_of_lt_of_le hcentre (Nat.mul_le_mul_right _ ?_)
  exact Nat.pow_le_pow_right (by decide) (by omega)

/-- The number is at least `10 ^ 16` steps of the grid of decimals with seventeen digits. -/
theorem step_le {magnitude : Nat} (h : 0 < magnitude) :
    10 ^ 16 * (10 ^ (places magnitude - 17) * quarters) ≤ (Span.of magnitude).centre := by
  have hplaces := lt_places h
  have hcentre : 10 ^ (places magnitude - 1) ≤ (Span.of magnitude).centre / quarters := by
    refine pow_length_toDigits_le (Nat.pos_of_ne_zero fun hzero => ?_)
    rw [places, hzero] at hplaces
    exact absurd hplaces (by decide)
  rw [Nat.le_div_iff_mul_le quarters_pos] at hcentre
  rwa [← Nat.mul_assoc, ← Nat.pow_add,
    show 16 + (places magnitude - 17) = places magnitude - 1 by omega]

/-- The search ends on a grid of decimals with at most seventeen digits. -/
theorem shortest_eq (tie : Tie) {magnitude : Nat} (h : 0 < magnitude) :
    ∃ n power, shortest tie magnitude = Decimal.ofScaled n power ∧ n ≤ 10 ^ 17 ∧
      (Span.of magnitude).includes (n * (10 ^ power * quarters)) = true := by
  rw [shortest]
  simp only
  generalize hfound : List.findSome? _ _ = found
  cases found with
  | some d =>
      obtain ⟨k, hk, hd⟩ := List.exists_of_findSome?_eq_some hfound
      obtain ⟨n, hn, rfl⟩ := Option.map_eq_some_iff.1 hd
      obtain ⟨hin, hbound⟩ := Span.of_onGrid hn
      have hlt := div_step_lt magnitude (k + 1)
      have hdigits : 10 ^ (k + 1) ≤ 10 ^ 17 :=
        Nat.pow_le_pow_right (by decide) (List.mem_range.1 hk)
      refine ⟨n, _, rfl, ?_, hin⟩
      exact Nat.le_trans hbound (Nat.le_trans hlt hdigits)
  | none =>
      have hlast := List.findSome?_eq_none_iff.1 hfound 16 (List.mem_range.2 (by decide))
      obtain ⟨n, hn⟩ := Span.exists_onGrid h tie (Nat.mul_pos (pow_ten_pos _) quarters_pos)
        (step_le h)
      cases hn.symm.trans (Option.map_eq_none_iff.1 hlast)

/-! ## Digits -/

/-- A text is what remains without the zeros at its end, and those zeros. -/
theorem exists_eq_append_zeros (text : List Char) :
    ∃ zeros, text = text.rdropWhile (· == '0') ++ List.replicate zeros '0' := by
  induction text using List.reverseRecOn with
  | nil => exact ⟨0, rfl⟩
  | append_singleton text c ih =>
      by_cases hc : c = '0'
      · obtain ⟨zeros, hzeros⟩ := ih
        have hzero : (c == '0') = true := beq_iff_eq.2 hc
        refine ⟨zeros + 1, ?_⟩
        rw [List.rdropWhile_concat_pos (· == '0') text c hzero, List.replicate_succ',
          ← List.append_assoc, ← hzeros, hc]
      · refine ⟨0, ?_⟩
        rw [List.rdropWhile_concat_neg _ _ _ (by simpa using hc), List.replicate_zero,
          List.append_nil]

/-- A decimal is the number that it is made from, without the zeros at its end. -/
theorem Decimal.ofScaled_eq (n power : Nat) :
    ∃ zeros, Numeral.digitsValue (ofScaled n power).digits * 10 ^ zeros = n ∧
      (ofScaled n power).point =
        ((ofScaled n power).digits.length + (power + zeros) : Nat) - (scale : Int) := by
  have hdigits : (ofScaled n power).digits = (Nat.toDigits 10 n).rdropWhile (· == '0') := rfl
  obtain ⟨zeros, hzeros⟩ := exists_eq_append_zeros (Nat.toDigits 10 n)
  rw [← hdigits] at hzeros
  refine ⟨zeros, ?_, ?_⟩
  · have hvalue : Nat.ofDigitChars 10 (Nat.toDigits 10 n) 0 = n := Nat.ofDigitChars_ten_toDigits
    rw [hzeros, Nat.ofDigitChars_append, Nat.ofDigitChars_replicate_zero] at hvalue
    rw [Numeral.digitsValue, Nat.mul_comm, hvalue]
  · have hlength := congrArg List.length hzeros
    rw [List.length_append, List.length_replicate] at hlength
    simp only [ofScaled] at hlength ⊢
    omega

/-- The shortest decimal of a number has at most seventeen digits and lies in its interval. -/
theorem shortest_spec (tie : Tie) {magnitude : Nat} (h : 0 < magnitude) :
    ∃ power : Nat,
      let d := shortest tie magnitude
      let significand := Numeral.digitsValue d.digits
      d.point - d.digits.length = power - (scale : Int) ∧ significand ≤ 10 ^ 17 ∧
        (Span.of magnitude).includes (significand * (10 ^ power * quarters)) = true := by
  obtain ⟨n, power, hshortest, hbound, hin⟩ := shortest_eq tie h
  obtain ⟨zeros, hvalue, hpoint⟩ := Decimal.ofScaled_eq n power
  rw [hshortest]
  simp only
  generalize Numeral.digitsValue (Decimal.ofScaled n power).digits = significand at hvalue ⊢
  have hpower : significand * (10 ^ (power + zeros) * quarters) = n * (10 ^ power * quarters) := by
    rw [← hvalue, Nat.pow_add]
    ring
  refine ⟨power + zeros, ?_, ?_, ?_⟩
  · rw [hpoint]
    omega
  · rw [← hvalue] at hbound
    exact Nat.le_trans (Nat.le_mul_of_pos_right _ (pow_ten_pos zeros)) hbound
  · rw [hpower, hin]

end Rulebook.Binary64
