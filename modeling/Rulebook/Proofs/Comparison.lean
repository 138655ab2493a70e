import Mathlib.Algebra.Order.Field.Rat
import Mathlib.Tactic.NormNum
import Rulebook.Evaluation
import Rulebook.Proofs.Binary64.Nearest

/-!
# Comparisons of integers with floating-point numbers

A comparison of an integer with a floating-point number rounds the integer first.  This may
make the two equal, but it never exchanges them (`Binary64.toRat_ofInt_le`,
`Binary64.le_toRat_ofInt`).  So a comparison gives what holds of the exact numbers, unless the
integer rounds to a number other than itself which it is compared with
(`Condition.test_mixed_iff`).  Integers up to `2 ^ 53` round to themselves
(`Binary64.toRat_ofInt`).
-/

namespace Rulebook

/-- Whether a comparison holds of two exact numbers. -/
def Comparator.Holds : Comparator → ℚ → ℚ → Prop
  | greater, p, q => q < p
  | less, p, q => p < q
  | equal, p, q => p = q

instance (c : Comparator) (p q : ℚ) : Decidable (c.Holds p q) :=
  match c with
  | .greater => inferInstanceAs (Decidable (q < p))
  | .less => inferInstanceAs (Decidable (p < q))
  | .equal => inferInstanceAs (Decidable (p = q))

namespace Binary64

/-! ## Exact values -/

/-- A finite number in units, with its sign. -/
def signedUnits (x : Binary64) : Int := if x.negative then -(x.units : Int) else x.units

/-- The exact value of a finite number. -/
def toRat (x : Binary64) : ℚ := x.signedUnits / (one : ℚ)

theorem toRat_lt_toRat_iff {x y : Binary64} : x.toRat < y.toRat ↔ x.signed < y.signed := by
  have hone : (0 : ℚ) < one := Nat.cast_pos.2 one_pos
  have hlt := unitsOf_strictMono.lt_iff_lt (a := x.magnitude) (b := y.magnitude)
  have hgt := unitsOf_strictMono.lt_iff_lt (a := y.magnitude) (b := x.magnitude)
  have hx := unitsOf_strictMono.lt_iff_lt (a := 0) (b := x.magnitude)
  have hy := unitsOf_strictMono.lt_iff_lt (a := 0) (b := y.magnitude)
  rw [unitsOf_zero] at hx hy
  rw [toRat, toRat, div_lt_div_iff_of_pos_right hone, Int.cast_lt, signedUnits, signedUnits, units,
    units, signed, signed]
  split <;> split <;> omega

theorem toRat_le_toRat_iff {x y : Binary64} : x.toRat ≤ y.toRat ↔ x.signed ≤ y.signed := by
  rw [← not_lt, ← not_lt, toRat_lt_toRat_iff]

/-- Numbers are compared by their exact values. -/
theorem accepts_order? {x y : Binary64} (hx : x.isNaN = false) (hy : y.isNaN = false)
    (c : Comparator) : c.accepts (x.order? y) = decide (c.Holds x.toRat y.toRat) := by
  have heq : x.toRat = y.toRat ↔ x.signed = y.signed := by
    rw [le_antisymm_iff, toRat_le_toRat_iff, toRat_le_toRat_iff, ← le_antisymm_iff]
  rw [order?, hx, hy, Bool.eq_iff_iff, decide_eq_true_iff]
  cases c with
  | greater => simp [Comparator.accepts, Comparator.Holds, toRat_lt_toRat_iff, compare_gt_iff_gt]
  | less => simp [Comparator.accepts, Comparator.Holds, toRat_lt_toRat_iff, compare_lt_iff_lt]
  | equal => simp [Comparator.accepts, Comparator.Holds, heq]

/-! ## Rounded integers -/

theorem isNaN_of_isFinite {x : Binary64} (h : x.isFinite = true) : x.isNaN = false :=
  decide_eq_false (Nat.not_lt.2 (Nat.le_of_lt (of_decide_eq_true h)))

theorem isNaN_ofInt (n : Int) : (ofInt n).isNaN = false :=
  decide_eq_false (Nat.not_lt.2 (Nat.min_le_left _ _))

/-- The signed magnitude nearest to an integral number of units. -/
def nearestSigned (units : Int) : Int :=
  if units < 0 then -(nearestMagnitude units.natAbs 1 : Int) else nearestMagnitude units.natAbs 1

theorem nearestSigned_mono {units units' : Int} (h : units ≤ units') :
    nearestSigned units ≤ nearestSigned units' := by
  rw [nearestSigned, nearestSigned]
  split
  next hneg =>
    split
    next =>
      have hsizes : units'.natAbs ≤ units.natAbs := by omega
      have hmono := nearestMagnitude_mono hsizes 1
      omega
    next => omega
  next hpos =>
    have hsizes : units.natAbs ≤ units'.natAbs := by omega
    have hmono := nearestMagnitude_mono hsizes 1
    rw [if_neg (by omega)]
    exact Int.ofNat_le.2 hmono

theorem nearestSigned_signedUnits {x : Binary64} (hx : x.isFinite = true) :
    nearestSigned x.signedUnits = x.signed := by
  have hself := nearestMagnitude_unitsOf (Nat.le_of_lt (of_decide_eq_true hx)) Nat.one_pos
  rw [Nat.mul_one] at hself
  rw [nearestSigned, signedUnits, signed, units]
  cases x.negative with
  | false =>
      rw [if_neg Bool.false_ne_true, if_neg Bool.false_ne_true, Int.natAbs_natCast, hself,
        if_neg (by omega)]
  | true =>
      rw [if_pos rfl, if_pos rfl, Int.natAbs_neg, Int.natAbs_natCast, hself]
      split
      next => rfl
      next hzero =>
        -- a zero with a sign is the other zero
        have hunits : unitsOf x.magnitude = 0 := by omega
        rw [hunits] at hself
        have hmagnitude : x.magnitude = 0 := hself.symm.trans (by decide)
        rw [hmagnitude]
        rfl

theorem nearestSigned_mul_one (n : Int) : nearestSigned (n * one) = (ofInt n).signed := by
  have hone : (0 : Int) < one := Int.natCast_pos.2 one_pos
  have hneg : n * one < 0 ↔ n < 0 := by
    rw [mul_neg_iff]
    omega
  simp only [nearestSigned, hneg, Int.natAbs_mul, Int.natAbs_natCast, ofInt, nearest, signed,
    decide_eq_true_eq]

theorem cast_le_toRat_iff {n : Int} {x : Binary64} :
    n ≤ x.toRat ↔ n * one ≤ x.signedUnits := by
  rw [toRat, le_div_iff₀ (Nat.cast_pos.2 one_pos)]
  norm_cast

theorem toRat_le_cast_iff {n : Int} {x : Binary64} :
    x.toRat ≤ n ↔ x.signedUnits ≤ n * one := by
  rw [toRat, div_le_iff₀ (Nat.cast_pos.2 one_pos)]
  norm_cast

/-- An integer below a number is not rounded to one above it. -/
theorem toRat_ofInt_le {n : Int} {x : Binary64} (hx : x.isFinite = true) (h : n ≤ x.toRat) :
    (ofInt n).toRat ≤ x.toRat := by
  rw [toRat_le_toRat_iff, ← nearestSigned_mul_one, ← nearestSigned_signedUnits hx]
  exact nearestSigned_mono (cast_le_toRat_iff.1 h)

/-- An integer above a number is not rounded to one below it. -/
theorem le_toRat_ofInt {n : Int} {x : Binary64} (hx : x.isFinite = true) (h : x.toRat ≤ n) :
    x.toRat ≤ (ofInt n).toRat := by
  rw [toRat_le_toRat_iff, ← nearestSigned_mul_one, ← nearestSigned_signedUnits hx]
  exact nearestSigned_mono (toRat_le_cast_iff.1 h)

/-- An integer of at most 53 binary digits is a number itself. -/
theorem toRat_ofInt {n : Int} (h : n.natAbs ≤ 2 ^ 53) : (ofInt n).toRat = n := by
  obtain ⟨m, hm, hunits⟩ : ∃ m, m ≤ _ ∧ unitsOf m = n.natAbs * one := exists_unitsOf 1074 h
  have hmagnitude : m ≤ infiniteMagnitude := Nat.le_trans hm (by decide)
  have hself := nearestMagnitude_unitsOf hmagnitude Nat.one_pos
  rw [hunits, Nat.mul_one] at hself
  have hsigned : (ofInt n).signedUnits = n * one := by
    have hsize : ((n.natAbs * one : Nat) : Int) = |n| * one := by
      rw [Nat.cast_mul, Int.natCast_natAbs]
    simp only [signedUnits, units, ofInt, nearest, hself, hunits, decide_eq_true_eq, hsize]
    split
    next hn => rw [abs_of_neg hn, Int.neg_mul, Int.neg_neg]
    next hn => rw [abs_of_nonneg (Int.not_lt.1 hn)]
  have hne : (one : ℚ) ≠ 0 := (Nat.cast_pos.2 one_pos).ne'
  rw [toRat, hsigned, Int.cast_mul, Int.cast_natCast, mul_div_cancel_right₀ _ hne]

/-- The greatest of these integers, as a number. -/
theorem toRat_two_pow : (ofBits 0x4340000000000000).toRat = 9007199254740992 := by
  have hself : ofInt 9007199254740992 = ofBits 0x4340000000000000 := by decide +kernel
  rw [← hself, toRat_ofInt (by decide)]
  norm_cast

end Binary64

/-- Two numbers compare with a third alike, if they lie on the same side of it, and if the one
that is equal to it compares as equal. -/
theorem Comparator.holds_iff_holds {p q r : ℚ} (hlt : r < p → q < p) (hgt : p < r → p < q)
    (c : Comparator) :
    ((c.Holds r p ↔ c.Holds q p) ↔ (r = p → (c.Holds q p ↔ c = .equal))) ∧
      ((c.Holds p r ↔ c.Holds p q) ↔ (r = p → (c.Holds p q ↔ c = .equal))) := by
  rcases lt_trichotomy r p with h | rfl | h
  · have hq := hlt h
    cases c <;> simp [Holds, h, hq, h.ne, h.ne', hq.ne, hq.ne', h.not_gt, hq.not_gt]
  · cases c <;> simp [Holds, eq_comm]
  · have hq := hgt h
    cases c <;> simp [Holds, h, hq, h.ne, h.ne', hq.ne, hq.ne', h.not_gt, hq.not_gt]

namespace Condition

/-- A comparison of an integer with a number has a result, which is that of the rounded integer.
It is what holds of the exact numbers, unless the integer rounds to the number: then it is so
exactly if the exact numbers compare as equal ones do. -/
theorem test_mixed_iff (n : Int64) {x : Binary64} (hx : x.isFinite = true) (field : String)
    (c : Comparator) :
    let rounded := (Binary64.ofInt n.toInt).toRat
    (test ⟨field, c, .float x⟩ (.int n) = .ok (decide (c.Holds rounded x.toRat)) ∧
      (test ⟨field, c, .float x⟩ (.int n) = .ok (decide (c.Holds n.toInt x.toRat)) ↔
        (rounded = x.toRat → (c.Holds n.toInt x.toRat ↔ c = .equal)))) ∧
    (test ⟨field, c, .int n⟩ (.float x) = .ok (decide (c.Holds x.toRat rounded)) ∧
      (test ⟨field, c, .int n⟩ (.float x) = .ok (decide (c.Holds x.toRat n.toInt)) ↔
        (rounded = x.toRat → (c.Holds x.toRat n.toInt ↔ c = .equal)))) ∧
    (n.toInt.natAbs ≤ 2 ^ 53 → rounded = n.toInt) := by
  intro rounded
  have hxNaN := Binary64.isNaN_of_isFinite hx
  have hnNaN := Binary64.isNaN_ofInt n.toInt
  have hint : test ⟨field, c, .float x⟩ (.int n) = .ok (decide (c.Holds rounded x.toRat)) := by
    simp only [test, Value.order?, Binary64.accepts_order? hnNaN hxNaN, rounded]
  have hfloat : test ⟨field, c, .int n⟩ (.float x) = .ok (decide (c.Holds x.toRat rounded)) := by
    simp only [test, Value.order?, Binary64.accepts_order? hxNaN hnNaN, rounded]
  have hlt (h : rounded < x.toRat) : (n.toInt : ℚ) < x.toRat := by
    rw [← not_le] at h ⊢
    exact fun hle => h (Binary64.le_toRat_ofInt hx hle)
  have hgt (h : x.toRat < rounded) : x.toRat < n.toInt := by
    rw [← not_le] at h ⊢
    exact fun hle => h (Binary64.toRat_ofInt_le hx hle)
  obtain ⟨hleft, hright⟩ := c.holds_iff_holds hlt hgt
  refine ⟨⟨hint, ?_⟩, ⟨hfloat, ?_⟩, Binary64.toRat_ofInt⟩
  · rw [hint, Except.ok.injEq, decide_eq_decide, hleft]
  · rw [hfloat, Except.ok.injEq, decide_eq_decide, hright]

/-- The first integer that rounds to another number: that it is not below this number holds of
the exact numbers too, that it equals the number does not. -/
theorem test_mixed_iff_rounded :
    let n : Int64 := 9007199254740993
    let x := Binary64.ofBits 0x4340000000000000
    x.isFinite = true ∧ x.toRat = 9007199254740992 ∧
      test ⟨"a", .less, .float x⟩ (.int n) = .ok (decide (Comparator.less.Holds n.toInt x.toRat)) ∧
      test ⟨"a", .equal, .int n⟩ (.float x) ≠
        .ok (decide (Comparator.equal.Holds x.toRat n.toInt)) := by
  intro n x
  have hfinite : x.isFinite = true := by decide
  have hrounded : Binary64.ofInt n.toInt = x := by decide +kernel
  have hx : x.toRat = 9007199254740992 := Binary64.toRat_two_pow
  have hn : (n.toInt : ℚ) = 9007199254740993 := by
    rw [show n.toInt = 9007199254740993 by decide]
    norm_cast
  obtain ⟨-, hless⟩ := (test_mixed_iff n hfinite "a" .less).1
  obtain ⟨-, hequal⟩ := (test_mixed_iff n hfinite "a" .equal).2.1
  refine ⟨hfinite, hx, hless.2 fun _ => ?_, fun heq => ?_⟩
  · refine iff_of_false ?_ (by decide)
    rw [Comparator.Holds, hn, hx]
    norm_num
  · have hexact := (hequal.1 heq (congrArg Binary64.toRat hrounded)).2 rfl
    rw [Comparator.Holds, hn, hx] at hexact
    norm_num at hexact

/-- An integer equals a number that differs from it. -/
theorem takes_rounded_as_equal :
    let n : Int64 := 9007199254740993
    let x := Binary64.ofBits 0x4340000000000000
    x.isFinite = true ∧ test ⟨"a", .equal, .float x⟩ (.int n) = .ok true ∧
      ¬ Comparator.equal.Holds n.toInt x.toRat := by
  intro n x
  refine ⟨by decide, by decide +kernel, ?_⟩
  rw [Comparator.Holds, Binary64.toRat_two_pow, show n.toInt = 9007199254740993 by decide]
  norm_num

end Condition

end Rulebook
