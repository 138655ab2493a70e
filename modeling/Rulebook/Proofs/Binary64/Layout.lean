import Rulebook.Binary64.Layout
import Rulebook.Proofs.Binary64.Shortest
import Rulebook.Proofs.Numeral

/-!
# Numerals of floating-point numbers

The decimals that round to a number that is not zero lie above zero, so the shortest of
them has a first digit that is not zero (`isNormal_shortest`).  Hence every numeral of a
number is one of JSON (`isJson_numeral`), and it is never the numeral of an integer
(`isFloat_numeral`).
-/

namespace Rulebook

/-- A numeral has digits after the point or a power of ten. -/
def Numeral.IsFloat (n : Numeral) : Prop := n.fraction ≠ [] ∨ n.exponent ≠ none

namespace Binary64

/-! ## Shortest decimals -/

/-- A decimal has digits, and the first one is not zero. -/
structure Decimal.IsNormal (d : Decimal) : Prop where
  all_isDigit : d.digits.all Char.isDigit = true
  digits_eq_cons : ∃ c rest, d.digits = c :: rest ∧ c ≠ '0'

theorem Decimal.isNormal_ofScaled {n : Nat} (power : Nat) (h : 0 < n) :
    (Decimal.ofScaled n power).IsNormal := by
  have hdigits : (Decimal.ofScaled n power).digits =
      (Nat.toDigits 10 n).rdropWhile (· == '0') := rfl
  obtain ⟨tail, hstart⟩ := List.rdropWhile_prefix (· == '0') (Nat.toDigits 10 n)
  obtain ⟨c, rest, hc, hne⟩ := Numeral.toDigits_eq_cons h
  constructor
  · rw [hdigits, List.all_eq_true]
    intro d hd
    have hall := List.all_eq_true.1 (Numeral.all_isDigit_toDigits n)
    exact hall d (hstart ▸ List.mem_append_left tail hd)
  · rw [hdigits]
    cases hkept : (Nat.toDigits 10 n).rdropWhile (· == '0') with
    | nil =>
        rw [List.rdropWhile_eq_nil_iff, hc] at hkept
        exact absurd (beq_iff_eq.1 (hkept c (.head _))) hne
    | cons d kept =>
        rw [hkept, hc, List.cons_append, List.cons.injEq] at hstart
        exact ⟨d, kept, rfl, hstart.1 ▸ hne⟩

theorem isNormal_shortest (tie : Tie) {magnitude : Nat} (h : 0 < magnitude) :
    (shortest tie magnitude).IsNormal := by
  obtain ⟨n, power, hshortest, -, hin⟩ := shortest_eq tie h
  rw [hshortest]
  exact Decimal.isNormal_ofScaled power (Span.pos_of_includes h hin)

/-! ## Numerals -/

theorem all_isDigit_replicate (n : Nat) :
    (List.replicate n '0').all Char.isDigit = true := by
  rw [List.all_replicate]
  split <;> rfl

theorem Decimal.IsNormal.isJson_positional {d : Decimal} (h : d.IsNormal)
    (negative : Bool) : (d.positional negative).IsJson := by
  obtain ⟨hall, c, rest, hc, hne⟩ := h
  have hmem := List.all_eq_true.1 hall
  have htake : (d.digits.take d.point.toNat).all Char.isDigit = true :=
    List.all_eq_true.2 fun digit hdigit => hmem digit (List.mem_of_mem_take hdigit)
  have hdrop : (d.digits.drop d.point.toNat).all Char.isDigit = true :=
    List.all_eq_true.2 fun digit hdigit => hmem digit (List.mem_of_mem_drop hdigit)
  constructor
  · simp only [positional]
    split
    next => rfl
    next => rw [List.all_append, htake, all_isDigit_replicate, Bool.true_and]
  · simp only [positional]
    split
    next => rfl
    next hwhole =>
      cases hpoint : d.point.toNat with
      | zero => simp [hpoint] at hwhole
      | succ before =>
          rw [hc, List.take_succ_cons, List.cons_append, Numeral.isWhole, bne_iff_ne.2 hne,
            Bool.true_or]
  · simp only [positional]
    split
    next => rfl
    next => rw [List.all_append, hdrop, all_isDigit_replicate, Bool.true_and]
  · intro e he
    cases he

theorem Decimal.IsNormal.isJson_scientific {d : Decimal} (h : d.IsNormal) (negative plus : Bool) :
    (d.scientific negative plus).IsJson := by
  obtain ⟨hall, c, rest, hc, hne⟩ := h
  rw [hc, List.all_cons, Bool.and_eq_true] at hall
  constructor
  · simp [scientific, hc, hall.1]
  · simp [scientific, hc, Numeral.isWhole]
  · simp only [scientific, hc, List.drop_succ_cons, List.drop_zero]
    exact hall.2
  · intro e he
    cases he
    exact Numeral.isDigits_toDigits _

/-- The numeral of a number is one of JSON. -/
theorem isJson_numeral (style : FloatStyle) (x : Binary64) : (x.numeral style).IsJson := by
  rw [numeral]
  split
  next =>
    refine ⟨rfl, rfl, rfl, ?_⟩
    intro e he
    cases he
  next hne =>
    have hnormal := isNormal_shortest style.tie (Nat.pos_of_ne_zero hne)
    simp only
    split
    next => exact hnormal.isJson_positional x.negative
    next => exact hnormal.isJson_scientific x.negative style.plus

theorem Decimal.fraction_positional_ne_nil (d : Decimal) (negative : Bool) :
    (d.positional negative).fraction ≠ [] := by
  rw [positional]
  simp only
  split
  next => exact List.cons_ne_nil _ _
  next hne =>
    intro hnil
    exact hne (List.isEmpty_iff.2 hnil)

/-- There are as many digits before the point as its place says, but at least one. -/
theorem Decimal.length_whole_positional (d : Decimal) (negative : Bool) :
    (d.positional negative).whole.length = max 1 d.point.toNat := by
  have hlength : (d.digits.take d.point.toNat ++
      List.replicate (d.point.toNat - d.digits.length) '0').length = d.point.toNat := by
    rw [List.length_append, List.length_take, List.length_replicate]
    omega
  rw [positional]
  simp only
  split
  next hwhole =>
    rw [List.isEmpty_iff.1 hwhole] at hlength
    rw [← hlength]
    rfl
  next hwhole =>
    rw [hlength]
    rw [List.isEmpty_iff, ← List.length_eq_zero_iff, hlength] at hwhole
    omega

theorem isFloat_numeral (style : FloatStyle) (x : Binary64) :
    (x.numeral style).IsFloat := by
  rw [numeral]
  split
  next => exact .inl (List.cons_ne_nil _ _)
  next =>
    simp only
    split
    next => exact .inl (Decimal.fraction_positional_ne_nil _ _)
    next => exact .inr (Option.some_ne_none _)

theorem negative_numeral (style : FloatStyle) (x : Binary64) :
    (x.numeral style).negative = x.negative := by
  rw [numeral]
  split
  next => rfl
  next =>
    simp only
    split
    next => rfl
    next => rfl

end Binary64

end Rulebook
