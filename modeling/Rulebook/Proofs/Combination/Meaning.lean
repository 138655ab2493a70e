import Rulebook.Proofs.Combination.Sequence
import Rulebook.Proofs.Process

/-!
# Combining after any calls

The combination of rules reads them through the cache of a process.  Whatever the process
has done before, a combined rule has the fields of its rules in order, rotated, and on a
record the result of the first of them that settles it
(`Process.combine_settles_in_order`).
-/

namespace Rulebook

/-- The occurrences of a pattern are the tails that it is a prefix of. -/
theorem occurrences_eq_countP {pattern : List Char} (h : pattern ≠ []) :
    ∀ text : List Char, occurrences pattern text = text.tails.countP (pattern.isPrefixOf ·)
  | [] => by
      cases pattern with
      | nil => exact absurd rfl h
      | cons c rest => rfl
  | c :: rest => by
      rw [occurrences, occurrences_eq_countP h rest, List.tails_cons, List.countP_cons,
        Nat.add_comm]

/-- How often an operator's keyword stands in texts, by the tails that start with it. -/
theorem LogicalOp.count_eq (op : LogicalOp) (texts : List String) :
    op.count texts = (texts.map fun text =>
      text.toList.tails.countP (op.keyword.toList.isPrefixOf ·)).sum := by
  have hne : op.keyword.toList ≠ [] := by
    cases op <;> decide
  induction texts with
  | nil => rfl
  | cons text rest ih =>
      rw [count, occurrences_eq_countP hne, ih, List.map_cons, List.sum_cons]

/-- The operator of the majority, by the tails of texts that start with a keyword. -/
theorem LogicalOp.majority_eq (texts : List String) :
    LogicalOp.majority texts =
      let count (op : LogicalOp) : Nat := (texts.map fun text =>
        text.toList.tails.countP (op.keyword.toList.isPrefixOf ·)).sum
      if count .or ≤ count .and then .and else .or := by
  simp only [LogicalOp.majority, LogicalOp.count_eq]

/-- After any calls, a rule that is combined from texts has the fields of their rules in
order, when these are rotated by twice as many places as there are rules above a power of
two.  On a record it settles on the first of their results, in this order, that is an error
or decides under the operator.  This is AND if its keyword stands in the texts at least as
often as that of OR. -/
theorem Process.combine_settles_in_order {calls : List Call} {texts : List String}
    {tree : Tree} (h : ((Process.start.after calls).cache.combine texts).1 = .ok tree) :
    ∃ trees : List Tree, texts.map Tree.parse = trees.map .ok ∧
      let count (op : LogicalOp) : Nat := (texts.map fun text =>
        text.toList.tails.countP (op.keyword.toList.isPrefixOf ·)).sum
      let op : LogicalOp := if count .or ≤ count .and then .and else .or
      let sequence := trees.rotate (2 * (texts.length - 2 ^ texts.length.log2))
      tree.fields = sequence.flatMap Tree.fields ∧
        ∀ record, tree.evaluate record = op.settle (sequence.map (·.evaluate record)) := by
  have hc : (Process.start.after calls).cache.Sound := sound_after (.of_empty rfl) calls
  rw [(hc.combine texts).1] at h
  obtain ⟨trees, hparse, hj⟩ := Tree.joins_of_combine h
  rw [LogicalOp.majority_eq] at hj
  exact ⟨trees, hparse, hj.fields, hj.evaluate⟩

/-- Three rules joined by OR, the last one first. -/
theorem Process.combine_settles_in_order_three :
    let leaf (field : String) (comparator : Comparator) (i : Int64) : Tree :=
      .leaf ⟨field, comparator, .int i⟩
    let tree : Tree := .operator .or (leaf "c" .greater 3) (.operator .or (leaf "a" .greater 1)
      (.operator .or (leaf "b" .greater 2) (leaf "b" .less 0)))
    let texts := ["a > 1", "b > 2 OR b < 0", "c > 3"]
    (((Process.start.after [.clear]).cache.combine texts).1 = .ok tree) ∧
      ∃ trees : List Tree, texts.map Tree.parse = trees.map .ok ∧
        tree.fields = (trees.rotate 2).flatMap Tree.fields ∧
        ∀ record, tree.evaluate record =
          LogicalOp.or.settle ((trees.rotate 2).map (·.evaluate record)) := by
  intro leaf tree texts
  have h : ((Process.start.after [.clear]).cache.combine texts).1 = .ok tree := by
    decide +kernel
  obtain ⟨trees, hparse, hmeaning⟩ := Process.combine_settles_in_order h
  have hlog : texts.length.log2 = 1 := by decide +kernel
  have hcount : ¬ (texts.map fun text =>
        text.toList.tails.countP (LogicalOp.or.keyword.toList.isPrefixOf ·)).sum ≤
      (texts.map fun text =>
        text.toList.tails.countP (LogicalOp.and.keyword.toList.isPrefixOf ·)).sum := by
    decide +kernel
  simp only [hlog, if_neg hcount] at hmeaning
  exact ⟨h, trees, hparse, hmeaning⟩

end Rulebook
