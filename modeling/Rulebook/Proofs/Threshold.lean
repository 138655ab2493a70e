import Rulebook.Proofs.Comparison
import Rulebook.Proofs.Decision

/-!
# Thresholds

A condition with `>` that holds of an integer holds of every greater one, and one with `<` of
every smaller one (`Condition.test_of_favours`).  This is so for a literal of any kind: rounding
an integer to compare it with a floating-point number keeps the order
(`Binary64.signed_ofInt_mono`), and what is no number, or no text, is so for all integers.

Other integers may change which sides of a rule are left out, and so which errors show.  They
never make a rule false that was true, if they make no single condition so
(`Tree.evaluate_ne_false`).  So rules are monotone in a field that they compare in one direction
only (`Tree.evaluate_thresholds`).
-/

namespace Rulebook

/-! ## Conditions -/

/-- The second of two integers satisfies a comparison wherever the first does. -/
def Comparator.Favours : Comparator → Int64 → Int64 → Prop
  | greater, a, b => a ≤ b
  | less, a, b => b ≤ a
  | equal, a, b => a = b

/-- A scale that keeps the order of integers keeps what they satisfy. -/
theorem Comparator.Favours.accepts {c : Comparator} {a b : Int64} (h : c.Favours a b)
    (scale : Int → Int) (hscale : ∀ {n m : Int}, n ≤ m → scale n ≤ scale m) (limit : Int)
    (ha : c.accepts (some (compare (scale a.toInt) limit)) = true) :
    c.accepts (some (compare (scale b.toInt) limit)) = true := by
  cases c with
  | greater =>
      have hle := hscale (Int64.le_iff_toInt_le.1 h)
      simp only [Comparator.accepts, beq_iff_eq, Option.some.injEq, compare_gt_iff_gt] at ha ⊢
      omega
  | less =>
      have hle := hscale (Int64.le_iff_toInt_le.1 h)
      simp only [Comparator.accepts, beq_iff_eq, Option.some.injEq, compare_lt_iff_lt] at ha ⊢
      omega
  | equal =>
      obtain rfl : a = b := h
      exact ha

/-- Of two integers the greater one is not rounded to a smaller number. -/
theorem Binary64.signed_ofInt_mono {n m : Int} (h : n ≤ m) :
    (ofInt n).signed ≤ (ofInt m).signed := by
  simp only [← nearestSigned_mul_one]
  exact nearestSigned_mono (Int.mul_le_mul_of_nonneg_right h (Int.natCast_nonneg one))

/-- A condition that holds of an integer holds of every one that its comparison favours. -/
theorem Condition.test_of_favours {c : Condition} {a b : Int64} (h : c.comparator.Favours a b)
    (ha : c.test (.int a) = .ok true) : c.test (.int b) = .ok true := by
  obtain ⟨field, comparator, literal⟩ := c
  cases literal with
  | int i =>
      simp only [test, Value.order?, Except.ok.injEq] at ha ⊢
      exact h.accepts id (fun hle => hle) i.toInt ha
  | float x =>
      simp only [test, Value.order?, Except.ok.injEq, Binary64.order?, Binary64.isNaN_ofInt,
        Bool.false_or] at ha ⊢
      split
      next hnan => rwa [if_pos hnan] at ha
      next hnan =>
        rw [if_neg hnan] at ha
        exact h.accepts (fun n => (Binary64.ofInt n).signed) Binary64.signed_ofInt_mono x.signed ha
  | text s => cases ha

namespace Tree

/-! ## Rules -/

/-- A rule compares a field with literals in one way only. -/
def Compares (tree : Tree) (field : String) (comparator : Comparator) : Prop :=
  ∀ c ∈ tree.leaves, c.field = field → c.comparator = comparator

instance (tree : Tree) (field : String) (comparator : Comparator) :
    Decidable (tree.Compares field comparator) :=
  inferInstanceAs (Decidable (∀ c ∈ tree.leaves, c.field = field → c.comparator = comparator))

/-- Where no condition that holds of one record fails to hold of another, no rule does. -/
theorem evaluate_ne_false {tree : Tree} {record other : Record}
    (h : ∀ c ∈ tree.leaves, c.evaluate record = .ok true → c.evaluate other ≠ .ok false)
    (htrue : tree.evaluate record = .ok true) : tree.evaluate other ≠ .ok false := by
  induction tree with
  | leaf c => exact h c (.head _) htrue
  | operator op left right ihleft ihright =>
      obtain ⟨hleft, hright⟩ := List.forall_mem_append.1 h
      rw [ne_eq, evaluate_operator_eq_ok_iff, not_or]
      rw [evaluate_operator_eq_ok_iff] at htrue
      cases op with
      | and =>
          rcases htrue with ⟨-, hdeciding⟩ | ⟨hl, hr⟩
          · cases hdeciding
          · exact ⟨fun hfalse => ihleft hleft hl hfalse.1, fun hfalse => ihright hright hr hfalse.2⟩
      | or =>
          refine ⟨fun hfalse => Bool.false_ne_true hfalse.2, fun hfalse => ?_⟩
          rcases htrue with ⟨hl, -⟩ | ⟨-, hr⟩
          · exact ihleft hleft hl hfalse.1
          · exact ihright hright hr hfalse.2

/-- An integer that the comparison favours never makes the rule false. -/
theorem evaluate_of_favours {tree : Tree} {field : String} {comparator : Comparator}
    (h : tree.Compares field comparator) {a b : Int64} (hab : comparator.Favours a b)
    {record : Record} (htrue : tree.evaluate (record.insert field (.int a)) = .ok true) :
    tree.evaluate (record.insert field (.int b)) ≠ .ok false := by
  refine evaluate_ne_false (fun c hc ha => ?_) htrue
  by_cases hfield : c.field = field
  · rw [← h c hc hfield] at hab
    simp only [Condition.evaluate, Table.get?_insert, if_pos hfield] at ha ⊢
    rw [Condition.test_of_favours hab ha]
    simp
  · simp only [Condition.evaluate, Table.get?_insert, if_neg hfield] at ha ⊢
    rw [ha]
    simp

/-- Let a rule compare a field only by `>`, with literals of any kind, and hold of a record.
With a greater integer in this field it does not become false; it holds again, or fails.  The
same is so of smaller integers where the rule compares the field only by `<`. -/
theorem evaluate_thresholds (tree : Tree) (field : String) (record : Record) {a b : Int64}
    (hab : a ≤ b) :
    (tree.Compares field .greater →
      tree.evaluate (record.insert field (.int a)) = .ok true →
      tree.evaluate (record.insert field (.int b)) ≠ .ok false) ∧
    (tree.Compares field .less →
      tree.evaluate (record.insert field (.int b)) = .ok true →
      tree.evaluate (record.insert field (.int a)) ≠ .ok false) :=
  ⟨fun h => evaluate_of_favours h hab, fun h => evaluate_of_favours h hab⟩

/-- A greater integer reaches a side that was left out and fails there; a smaller one is below a
number that both are rounded to at most, and neither is below what is no number. -/
theorem evaluate_thresholds_two :
    let record : Record := Table.empty.insert "y" (.int 1)
    let above : Tree := .operator .or
      (.operator .and (.leaf ⟨"x", .greater, .int 5⟩) (.leaf ⟨"x", .greater, .text "z"⟩))
      (.leaf ⟨"y", .equal, .int 1⟩)
    let below : Tree := .operator .or
      (.leaf ⟨"x", .less, .float (.ofBits 0x7FF8000000000000)⟩)
      (.leaf ⟨"x", .less, .float (.ofBits 0x4340000000000001)⟩)
    (above.evaluate (record.insert "x" (.int 0)) = .ok true ∧
      above.evaluate (record.insert "x" (.int 10)) = .error (.typeMismatch .int .text) ∧
      above.evaluate (record.insert "x" (.int 10)) ≠ .ok false) ∧
    below.evaluate (record.insert "x" (.int 9007199254740993)) = .ok true ∧
      below.evaluate (record.insert "x" (.int 9007199254740992)) ≠ .ok false := by
  intro record above below
  have habove : above.evaluate (record.insert "x" (.int 0)) = .ok true := by decide +kernel
  have hbelow : below.evaluate (record.insert "x" (.int 9007199254740993)) = .ok true := by
    decide +kernel
  have hten : (0 : Int64) ≤ 10 := by decide
  have hrounded : (9007199254740992 : Int64) ≤ 9007199254740993 := by decide
  refine ⟨⟨habove, by decide +kernel, ?_⟩, hbelow, ?_⟩
  · exact (evaluate_thresholds above "x" record hten).1 (by decide) habove
  · exact (evaluate_thresholds below "x" record hrounded).2 (by decide) hbelow

end Tree

end Rulebook
