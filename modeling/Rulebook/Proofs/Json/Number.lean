import Rulebook.Proofs.Binary64.Layout

/-!
# The numbers of written numerals

The numeral of an integer of at most 64 bits stands for this integer, and that of any other
integer for none (`Numeral.number?_ofInt_eq_int_iff`).  What the numeral of a floating-point
number stands for is a floating-point number again, if it stands for anything
(`Numeral.IsFloat.eq_float`).
-/

namespace Rulebook

namespace Json

theorem le_ofDigitChars (significand : Nat) (digits : List Char) :
    significand ≤ Nat.ofDigitChars 10 digits significand := by
  rw [Nat.ofDigitChars_eq_ofDigitChars_zero]
  exact Nat.le_trans (Nat.le_mul_of_pos_left _ (by positivity)) (Nat.le_add_right _ _)

/-- Digits that stand for a number below `2 ^ 64` are all gathered. -/
theorem gather_eq {digits : List Char} {significand : Nat}
    (h : Nat.ofDigitChars 10 digits significand < UInt64.size) :
    gather significand digits = (Nat.ofDigitChars 10 digits significand, []) := by
  induction digits generalizing significand with
  | nil => rfl
  | cons d rest ih =>
      rw [Nat.ofDigitChars_cons, Nat.mul_comm] at h ⊢
      have hnext : significand * 10 + (d.toNat - 48) < UInt64.size :=
        Nat.lt_of_le_of_lt (le_ofDigitChars _ rest) h
      rw [gather]
      simp only [if_pos hnext]
      exact ih h

theorem gather_lt {digits : List Char} {significand : Nat} (h : significand < UInt64.size) :
    (gather significand digits).1 < UInt64.size := by
  induction digits generalizing significand with
  | nil => exact h
  | cons d rest ih =>
      rw [gather]
      split
      next hnext => exact ih hnext
      next => exact h

/-- If no digit is left over, what has been gathered is the number of all digits. -/
theorem eq_of_gather {digits : List Char} {significand gathered : Nat}
    (h : gather significand digits = (gathered, [])) :
    gathered = Nat.ofDigitChars 10 digits significand := by
  induction digits generalizing significand with
  | nil =>
      cases h
      rfl
  | cons d rest ih =>
      rw [gather] at h
      split at h
      next =>
        rw [Nat.ofDigitChars_cons, Nat.mul_comm]
        exact ih h
      next => cases h

end Json

namespace Numeral

theorem number?_ofInt {i : Int} (hlow : Int64.minValue.toInt ≤ i) (hhigh : i < UInt64.size) :
    (ofInt i).number? = some (.int i) := by
  have hbound : UInt64.size = 18446744073709551616 := rfl
  rw [Int64.toInt_minValue] at hlow
  have hsize : Nat.ofDigitChars 10 (ofInt i).whole 0 = i.natAbs :=
    Nat.ofDigitChars_ten_toDigits
  have hgather : Json.gather 0 (ofInt i).whole = (i.natAbs, []) := by
    rw [Json.gather_eq (by omega), hsize]
  rw [number?, hgather]
  simp only [ofInt, List.isEmpty_nil, Option.isNone_none, Bool.and_self, if_true]
  by_cases hi : i < 0
  · have hnatAbs : 0 < i.natAbs ∧ i.natAbs ≤ 1 <<< 63 := by omega
    simp only [decide_eq_true hi, if_true, if_pos hnatAbs, Option.some.injEq,
      Json.Number.int.injEq]
    omega
  · simp only [decide_eq_false hi, Bool.false_eq_true, if_false, Option.some.injEq,
      Json.Number.int.injEq]
    omega

/-- The numeral of an integer stands for no other integer, and for none at all if the integer is
outside these bounds. -/
theorem number?_ofInt_eq_int_iff {i j : Int} :
    (ofInt i).number? = some (.int j) ↔ j = i ∧ Int64.minValue.toInt ≤ i ∧ i < UInt64.size := by
  constructor
  · intro h
    have hbound : (Json.gather 0 (ofInt i).whole).1 < UInt64.size := Json.gather_lt (by decide)
    rw [number?] at h
    generalize hgather : Json.gather 0 (ofInt i).whole = gathered at h hbound
    obtain ⟨integral, dropped⟩ := gathered
    cases dropped with
    | cons d rest =>
        simp [ofInt] at h
    | nil =>
        have hsize : integral = i.natAbs :=
          (Json.eq_of_gather hgather).trans Nat.ofDigitChars_ten_toDigits
        simp only [ofInt, List.isEmpty_nil, Option.isNone_none, Bool.and_self, if_true] at h hbound
        rw [Int64.toInt_minValue]
        have hbound' : UInt64.size = 18446744073709551616 := rfl
        by_cases hneg : i < 0
        · by_cases hsmall : 0 < integral ∧ integral ≤ 1 <<< 63
          · simp only [decide_eq_true hneg, if_true, if_pos hsmall, Option.some.injEq,
              Json.Number.int.injEq] at h
            omega
          · simp only [decide_eq_true hneg, if_true, if_neg hsmall, Option.some.injEq,
              reduceCtorEq] at h
        · simp only [decide_eq_false hneg, Bool.false_eq_true, if_false, Option.some.injEq,
            Json.Number.int.injEq] at h
          omega
  · rintro ⟨rfl, hlow, hhigh⟩
    exact number?_ofInt hlow hhigh

/-- A numeral with a point or a power of ten stands for no integer. -/
theorem IsFloat.eq_float {n : Numeral} (h : n.IsFloat) {number : Json.Number}
    (hn : n.number? = some number) : ∃ x, number = .float x := by
  have hfloat : (n.fraction.isEmpty && n.exponent.isNone) = false := by
    rw [Bool.and_eq_false_iff, List.isEmpty_eq_false_iff]
    rcases h with hfraction | hexponent
    · exact .inl hfraction
    · exact .inr (Option.isNone_eq_false_iff.2 (Option.isSome_iff_ne_none.2 hexponent))
  rw [number?] at hn
  simp only [hfloat, Bool.false_and, Bool.false_eq_true, if_false] at hn
  obtain ⟨x, -, rfl⟩ := Option.map_eq_some_iff.1 hn
  exact ⟨_, rfl⟩

end Numeral

end Rulebook
