import Rulebook.Proofs.Combination.Sequence

/-!
# What evaluations decide

An evaluation goes from left to right and may end before it has seen every leaf.  Its results
are nevertheless those of AND and OR (`Tree.evaluate_decides`).  Where it gives a truth value,
the rule has this value however the leaves that fail are valued (`Tree.value_of_evaluate`), so
the order of the sides never turns one value into the other (`Tree.Swaps.eq_of_evaluate`).
Where it fails, it fails as a leaf that still decides: with the results to the left of this leaf
the rule can have either value (`Tree.exists_decisive_leaf`).  And it fails only at fields that
are missing or that cannot be compared (`Condition.exists_evaluate_eq_ok`).

Leaves are counted from left to right, and a valuation gives each of them a value by its
number, so that equal conditions at two leaves may be valued apart.
-/

namespace Rulebook

/-! ## Operators -/

/-- The value of a join, from the values of its sides. -/
def LogicalOp.apply : LogicalOp → Bool → Bool → Bool
  | .and, x, y => x && y
  | .or, x, y => x || y

namespace LogicalOp

@[simp] theorem apply_deciding (op : LogicalOp) (y : Bool) :
    op.apply op.deciding y = op.deciding := by
  cases op <;> rfl

@[simp] theorem apply_not_deciding (op : LogicalOp) (y : Bool) :
    op.apply (!op.deciding) y = y := by
  cases op <;> rfl

@[simp] theorem apply_right_not_deciding (op : LogicalOp) (x : Bool) :
    op.apply x (!op.deciding) = x := by
  cases op <;> cases x <;> rfl

@[simp] theorem apply_self (op : LogicalOp) (x : Bool) : op.apply x x = x := by
  cases op <;> cases x <;> rfl

end LogicalOp

/-! ## Conditions -/

/-- Whether a value is a number. -/
def Value.isNumber : Value → Bool
  | .int _ | .float _ => true
  | .text _ => false

/-- Two numbers can be compared, and two texts. -/
theorem Value.exists_order? {v w : Value} (h : v.isNumber = w.isNumber) :
    ∃ order, v.order? w = some order := by
  cases v <;> cases w <;> first | exact ⟨_, rfl⟩ | cases h

theorem Condition.exists_test_eq_ok {c : Condition} {value : Value}
    (h : value.isNumber = c.literal.isNumber) : ∃ b, c.test value = .ok b := by
  obtain ⟨order, horder⟩ := Value.exists_order? h
  exact ⟨c.comparator.accepts order, by rw [test, horder]⟩

theorem Condition.exists_evaluate_eq_ok {c : Condition} {record : Record} {value : Value}
    (hfield : record.get? c.field = some value) (h : value.isNumber = c.literal.isNumber) :
    ∃ b, c.evaluate record = .ok b := by
  rw [evaluate, hfield]
  exact exists_test_eq_ok h

namespace Tree

/-! ## Leaves and valuations -/

/-- The conditions at the leaves, from left to right. -/
def leaves : Tree → List Condition
  | leaf c => [c]
  | operator _ left right => left.leaves ++ right.leaves

/-- The value of a rule whose leaves have the given values, by their numbers. -/
def value : Tree → (Nat → Bool) → Bool
  | leaf _, valuation => valuation 0
  | operator op left right, valuation =>
      op.apply (left.value valuation) (right.value fun n => valuation (left.leaves.length + n))

/-- A valuation gives each of the conditions, by their numbers, its own result, unless this is
an error. -/
def Agrees (record : Record) (conditions : List Condition) (valuation : Nat → Bool) : Prop :=
  ∀ n c b, conditions[n]? = some c → c.evaluate record = .ok b → valuation n = b

variable {record : Record}

theorem agrees_nil (valuation : Nat → Bool) : Agrees record [] valuation := by
  intro n c b hc
  cases hc

theorem agrees_append {first second : List Condition} {valuation : Nat → Bool} :
    Agrees record (first ++ second) valuation ↔
      Agrees record first valuation ∧
        Agrees record second fun n => valuation (first.length + n) := by
  constructor
  · intro h
    constructor
    · intro n c b hc
      have hn : n < first.length := (List.getElem?_eq_some_iff.1 hc).1
      exact h n c b (by rwa [List.getElem?_append_left hn])
    · intro n c b hc
      exact h _ c b (by rwa [List.getElem?_append_right (Nat.le_add_right _ _),
        Nat.add_sub_cancel_left])
  · rintro ⟨hfirst, hsecond⟩ n c b hc
    by_cases hn : n < first.length
    · rw [List.getElem?_append_left hn] at hc
      exact hfirst n c b hc
    · have hle := Nat.le_of_not_lt hn
      rw [List.getElem?_append_right hle] at hc
      rw [← Nat.add_sub_cancel' hle]
      exact hsecond _ c b hc

/-- Every rule has a valuation of its leaves that agrees with all their results. -/
theorem exists_agrees (record : Record) (conditions : List Condition) :
    ∃ valuation, Agrees record conditions valuation := by
  refine ⟨fun n => (conditions[n]?.map (·.evaluate record)).any (· = .ok true), ?_⟩
  intro n c b hc hb
  simp only [hc, Option.map_some, hb]
  cases b <;> rfl

theorem value_congr {tree : Tree} {valuation other : Nat → Bool}
    (h : ∀ n < tree.leaves.length, valuation n = other n) :
    tree.value valuation = tree.value other := by
  induction tree generalizing valuation other with
  | leaf c => exact h 0 Nat.zero_lt_one
  | operator op left right ihleft ihright =>
      rw [leaves, List.length_append] at h
      rw [value, value, ihleft fun n hn => h n (by omega),
        ihright fun n hn => h _ (by omega)]

theorem value_const (tree : Tree) (b : Bool) : tree.value (fun _ => b) = b := by
  induction tree with
  | leaf c => rfl
  | operator op left right ihleft ihright => rw [value, ihleft, ihright, LogicalOp.apply_self]

/-- A valuation of the first leaves by one function, and of those after them by another. -/
def splice (length : Nat) (first second : Nat → Bool) (n : Nat) : Bool :=
  if n < length then first n else second (n - length)

theorem splice_left {length n : Nat} (h : n < length) (first second : Nat → Bool) :
    splice length first second n = first n := if_pos h

theorem splice_right (length n : Nat) (first second : Nat → Bool) :
    splice length first second (length + n) = second n := by
  rw [splice, if_neg (Nat.not_lt.2 (Nat.le_add_right _ _)), Nat.add_sub_cancel_left]

/-- The sides of a join can be valued apart. -/
theorem value_splice (op : LogicalOp) (left right : Tree) (first second : Nat → Bool) :
    (operator op left right).value (splice left.leaves.length first second) =
      op.apply (left.value first) (right.value second) := by
  have hleft : left.value (splice left.leaves.length first second) = left.value first :=
    value_congr fun n hn => splice_left hn first second
  simp only [value, hleft, splice_right]

theorem Agrees.splice {first second : List Condition} {valuation other : Nat → Bool}
    (hfirst : Agrees record first valuation) (hsecond : Agrees record second other) :
    Agrees record (first ++ second) (splice first.length valuation other) := by
  rw [agrees_append]
  constructor
  · intro n c b hc hb
    rw [splice_left (List.getElem?_eq_some_iff.1 hc).1]
    exact hfirst n c b hc hb
  · simpa only [splice_right] using hsecond

/-! ## Results and values -/

/-- A join holds or not by its left side if that one decides, otherwise by its right side. -/
theorem evaluate_operator_eq_ok_iff {op : LogicalOp} {left right : Tree} {b : Bool} :
    (operator op left right).evaluate record = .ok b ↔
      (left.evaluate record = .ok op.deciding ∧ b = op.deciding) ∨
        (left.evaluate record = .ok (!op.deciding) ∧ right.evaluate record = .ok b) := by
  rw [evaluate_operator]
  cases left.evaluate record with
  | error e => simp
  | ok x => cases x <;> cases op <;> simp [LogicalOp.deciding, eq_comm]

/-- A join fails as its left side, or, if that one does not decide, as its right side. -/
theorem evaluate_operator_eq_error_iff {op : LogicalOp} {left right : Tree} {e : Error} :
    (operator op left right).evaluate record = .error e ↔
      left.evaluate record = .error e ∨
        (left.evaluate record = .ok (!op.deciding) ∧ right.evaluate record = .error e) := by
  rw [evaluate_operator]
  cases left.evaluate record with
  | error e => simp
  | ok x => cases x <;> cases op <;> simp [LogicalOp.deciding]

/-- A result is the value under every valuation that agrees with the results of the leaves. -/
theorem value_of_evaluate {tree : Tree} {b : Bool} (h : tree.evaluate record = .ok b)
    {valuation : Nat → Bool} (hagrees : Agrees record tree.leaves valuation) :
    tree.value valuation = b := by
  induction tree generalizing b valuation with
  | leaf c => exact hagrees 0 c b rfl h
  | operator op left right ihleft ihright =>
      obtain ⟨hfirst, hsecond⟩ := agrees_append.1 hagrees
      rcases evaluate_operator_eq_ok_iff.1 h with ⟨hleft, rfl⟩ | ⟨hleft, hright⟩
      · rw [value, ihleft hleft hfirst, LogicalOp.apply_deciding]
      · rw [value, ihleft hleft hfirst, LogicalOp.apply_not_deciding, ihright hright hsecond]

/-- The leaf that an evaluation fails as decides: whatever value the rule is to have, some
valuation that agrees with the results to the left of this leaf gives it. -/
theorem exists_decisive_leaf {tree : Tree} {e : Error} (h : tree.evaluate record = .error e) :
    ∃ n c, tree.leaves[n]? = some c ∧ c.evaluate record = .error e ∧
      ∀ b, ∃ valuation, Agrees record (tree.leaves.take n) valuation ∧
        tree.value valuation = b := by
  induction tree with
  | leaf c => exact ⟨0, c, rfl, h, fun b => ⟨fun _ => b, agrees_nil _, rfl⟩⟩
  | operator op left right ihleft ihright =>
      rcases evaluate_operator_eq_error_iff.1 h with hleft | ⟨hleft, hright⟩
      · obtain ⟨n, c, hc, he, hdecides⟩ := ihleft hleft
        have hn : n < left.leaves.length := (List.getElem?_eq_some_iff.1 hc).1
        refine ⟨n, c, by rwa [leaves, List.getElem?_append_left hn], he, ?_⟩
        intro b
        obtain ⟨valuation, hagrees, hvalue⟩ := hdecides b
        -- the right side takes the value that leaves the decision to the left one
        refine ⟨splice left.leaves.length valuation fun _ => !op.deciding, ?_, ?_⟩
        · intro m d x hd hx
          have hm : m < n := by
            have hlt := (List.getElem?_eq_some_iff.1 hd).1
            rw [List.length_take] at hlt
            omega
          rw [leaves, List.take_append_of_le_length (Nat.le_of_lt hn)] at hd
          rw [splice_left (Nat.lt_trans hm hn)]
          exact hagrees m d x hd hx
        · rw [value_splice, hvalue, value_const, LogicalOp.apply_right_not_deciding]
      · obtain ⟨n, c, hc, he, hdecides⟩ := ihright hright
        refine ⟨left.leaves.length + n, c, ?_, he, ?_⟩
        · rwa [leaves, List.getElem?_append_right (Nat.le_add_right _ _),
            Nat.add_sub_cancel_left]
        · intro b
          obtain ⟨first, hfirst⟩ := exists_agrees record left.leaves
          obtain ⟨second, hsecond, hvalue⟩ := hdecides b
          refine ⟨splice left.leaves.length first second, ?_, ?_⟩
          · rw [leaves, List.take_length_add_append]
            exact hfirst.splice hsecond
          · rw [value_splice, value_of_evaluate hleft hfirst, hvalue,
              LogicalOp.apply_not_deciding]

theorem field_mem_fields {tree : Tree} : ∀ c ∈ tree.leaves, c.field ∈ tree.fields := by
  induction tree with
  | leaf c => exact fun d hd => List.mem_singleton.2 (congrArg _ (List.mem_singleton.1 hd))
  | operator op left right ihleft ihright =>
      intro c hc
      rcases List.mem_append.1 hc with h | h
      · exact List.mem_append_left _ (ihleft c h)
      · exact List.mem_append_right _ (ihright c h)

/-- A rule whose leaves have results has one. -/
theorem exists_evaluate_eq_ok {tree : Tree}
    (h : ∀ c ∈ tree.leaves, ∃ b, c.evaluate record = .ok b) :
    ∃ b, tree.evaluate record = .ok b := by
  induction tree with
  | leaf c => exact h c (.head _)
  | operator op left right ihleft ihright =>
      obtain ⟨hleft, hright⟩ := List.forall_mem_append.1 h
      obtain ⟨x, hx⟩ := ihleft hleft
      obtain ⟨y, hy⟩ := ihright hright
      rw [evaluate_operator, hx, hy]
      split
      next => exact ⟨y, rfl⟩
      next => exact ⟨x, rfl⟩

/-! ## Swapped sides -/

/-- A rule is another one with the sides of some of its joins swapped. -/
inductive Swaps : Tree → Tree → Prop where
  | leaf (c : Condition) : Swaps (.leaf c) (.leaf c)
  | keep {op : LogicalOp} {left right left' right' : Tree} :
      Swaps left left' → Swaps right right' →
      Swaps (.operator op left right) (.operator op left' right')
  | swap {op : LogicalOp} {left right left' right' : Tree} :
      Swaps left left' → Swaps right right' →
      Swaps (.operator op left right) (.operator op right' left')

/-- Swapped sides may turn a result into an error, but never into the other result. -/
theorem Swaps.eq_of_evaluate {tree other : Tree} (h : Swaps tree other) {b b' : Bool}
    (hb : tree.evaluate record = .ok b) (hb' : other.evaluate record = .ok b') : b' = b := by
  induction h generalizing b b' with
  | leaf c => exact Except.ok.inj (hb'.symm.trans hb)
  | keep _ _ ihleft ihright =>
      rcases evaluate_operator_eq_ok_iff.1 hb with ⟨hleft, rfl⟩ | ⟨hleft, hright⟩ <;>
        rcases evaluate_operator_eq_ok_iff.1 hb' with ⟨hleft', rfl⟩ | ⟨hleft', hright'⟩
      · rfl
      · exact ((Bool.not_eq_self _).1 (ihleft hleft hleft')).elim
      · exact ((Bool.not_eq_self _).1 (ihleft hleft hleft').symm).elim
      · exact ihright hright hright'
  | swap _ _ ihleft ihright =>
      rcases evaluate_operator_eq_ok_iff.1 hb with ⟨hleft, rfl⟩ | ⟨hleft, hright⟩ <;>
        rcases evaluate_operator_eq_ok_iff.1 hb' with ⟨hright', rfl⟩ | ⟨hright', hleft'⟩
      · rfl
      · exact ihleft hleft hleft'
      · exact ihright hright hright'
      · rw [← ihright hright hright', ihleft hleft hleft']

/-! ## Evaluation -/

/-- A result is the value of the rule under every valuation that agrees with the results of
the leaves, and swapped sides never give the other result.  An error is that of a leaf that
still decides: valuations that agree with the results to its left give either value.  And
there is a result where the record has all fields, with numbers for numbers and texts for
texts. -/
theorem evaluate_decides (tree : Tree) (record : Record) :
    (∀ b, tree.evaluate record = .ok b →
      (∀ valuation, Agrees record tree.leaves valuation → tree.value valuation = b) ∧
      ∀ other, Swaps tree other → other.evaluate record ≠ .ok (!b)) ∧
    (∀ e, tree.evaluate record = .error e →
      ∃ n c, tree.leaves[n]? = some c ∧ c.evaluate record = .error e ∧
        ∀ b, ∃ valuation, Agrees record (tree.leaves.take n) valuation ∧
          tree.value valuation = b) ∧
    ((∀ field ∈ tree.fields, (record.get? field).isSome = true) →
      (∀ c ∈ tree.leaves, ∀ value ∈ record.get? c.field, value.isNumber = c.literal.isNumber) →
      ∃ b, tree.evaluate record = .ok b) := by
  refine ⟨?_, fun _ => exists_decisive_leaf, ?_⟩
  · intro b hb
    refine ⟨fun _ => value_of_evaluate hb, ?_⟩
    intro other hswaps hother
    exact (Bool.not_eq_self b).1 (hswaps.eq_of_evaluate hb hother)
  · intro hfields hkinds
    refine exists_evaluate_eq_ok fun c hc => ?_
    obtain ⟨value, hvalue⟩ := Option.isSome_iff_exists.1 (hfields _ (field_mem_fields c hc))
    exact Condition.exists_evaluate_eq_ok hvalue (hkinds c hc value hvalue)

/-- A rule on three records: the first lacks a field that is not needed, the second has a
number where the rule has a text, and the third has all fields. -/
theorem evaluate_decides_three :
    let tree : Tree := .operator .or
      (.operator .and (.leaf ⟨"a", .greater, .int 1⟩) (.leaf ⟨"b", .equal, .text "x"⟩))
      (.leaf ⟨"c", .less, .float (.ofBits 0x4004000000000000)⟩)
    let swapped : Tree := .operator .or
      (.leaf ⟨"c", .less, .float (.ofBits 0x4004000000000000)⟩)
      (.operator .and (.leaf ⟨"b", .equal, .text "x"⟩) (.leaf ⟨"a", .greater, .int 1⟩))
    let first : Record := (Table.empty.insert "a" (.int 1)).insert "c" (.int 2)
    let second : Record := (Table.empty.insert "a" (.int 2)).insert "b" (.int 5)
    let third : Record := (second.insert "b" (.text "y")).insert "c" (.int 3)
    tree.evaluate first = .ok true ∧
      (∀ valuation, Agrees first tree.leaves valuation → tree.value valuation = true) ∧
      swapped.evaluate first ≠ .ok false ∧
      tree.evaluate second = .error (.typeMismatch .int .text) ∧
      (∃ n c, tree.leaves[n]? = some c ∧
        c.evaluate second = .error (.typeMismatch .int .text) ∧
        ∀ b, ∃ valuation, Agrees second (tree.leaves.take n) valuation ∧
          tree.value valuation = b) ∧
      ∃ b, tree.evaluate third = .ok b := by
  intro tree swapped first second third
  have hfirst : tree.evaluate first = .ok true := by decide +kernel
  have hsecond : tree.evaluate second = .error (.typeMismatch .int .text) := by decide +kernel
  obtain ⟨hvalue, hswaps⟩ := (evaluate_decides tree first).1 true hfirst
  refine ⟨hfirst, hvalue, ?_, hsecond, (evaluate_decides tree second).2.1 _ hsecond, ?_⟩
  · exact hswaps swapped (.swap (.swap (.leaf _) (.leaf _)) (.leaf _))
  · exact (evaluate_decides tree third).2.2 (by decide +kernel) (by decide +kernel)

end Tree

end Rulebook
