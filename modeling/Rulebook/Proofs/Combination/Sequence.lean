import Mathlib.Algebra.GroupWithZero.Nat
import Mathlib.Data.List.Rotate
import Rulebook.Combination
import Rulebook.Evaluation
import Rulebook.Proofs.Tree

/-!
# What combined rules mean

A tree that joins others by one operator (`Joins`) has their fields in order
(`Joins.fields`) and on a record the result of the first of them that settles it
(`Joins.evaluate`).

A queue of trees keeps such a sequence (`Queues`).  Each round of the reduction joins pairs
from the front and puts them at the end.  Once the length is a power of two, every further
round leaves the sequence as it is (`Queues.joins_of_reduce`); the trees taken before then
have gone from the front to the back.  So the sequence of the result is the given one,
rotated (`Tree.joins_of_reduce`).
-/

namespace Rulebook

/-! ## Results in sequence -/

/-- What the results of a sequence settle on under an operator: the first that is an error
or the deciding result, and without one the other result. -/
def LogicalOp.settle (op : LogicalOp) (results : List (Except Error Bool)) :
    Except Error Bool :=
  (results.find? (· ≠ .ok (!op.deciding))).getD (.ok (!op.deciding))

@[simp] theorem LogicalOp.settle_nil (op : LogicalOp) : op.settle [] = .ok (!op.deciding) := rfl

@[simp] theorem LogicalOp.settle_singleton (op : LogicalOp) (result : Except Error Bool) :
    op.settle [result] = result := by
  unfold settle
  by_cases h : result = .ok (!op.deciding)
  · simp [h]
  · simp [h]

/-- Later results count only if the earlier ones settle nothing. -/
theorem LogicalOp.settle_append (op : LogicalOp) (first second : List (Except Error Bool)) :
    op.settle (first ++ second) =
      if op.settle first = .ok (!op.deciding) then op.settle second else op.settle first := by
  unfold settle
  rw [List.find?_append]
  cases h : first.find? (· ≠ .ok (!op.deciding)) with
  | none => simp
  | some result =>
      have hne : result ≠ .ok (!op.deciding) := by simpa using List.find?_some h
      simp [hne]

/-- A join settles on its left side, or has the result of its right side. -/
theorem Tree.evaluate_operator (record : Record) (op : LogicalOp) (l r : Tree) :
    (Tree.operator op l r).evaluate record =
      if l.evaluate record = .ok (!op.deciding) then r.evaluate record
      else l.evaluate record := by
  rw [Tree.evaluate]
  cases l.evaluate record with
  | error e => simp
  | ok result => cases result <;> cases op <;> rfl

/-! ## Joined trees -/

/-- A tree joins the trees of a sequence, in order, by one operator. -/
inductive Joins (op : LogicalOp) : Tree → List Tree → Prop where
  | single (tree : Tree) : Joins op tree [tree]
  | join {l r : Tree} {left right : List Tree} :
      Joins op l left → Joins op r right → Joins op (.operator op l r) (left ++ right)

theorem Joins.fields {op : LogicalOp} {tree : Tree} {parts : List Tree}
    (h : Joins op tree parts) : tree.fields = parts.flatMap Tree.fields := by
  induction h with
  | single tree => simp
  | join _ _ ihl ihr => rw [Tree.fields, ihl, ihr, List.flatMap_append]

theorem Joins.evaluate {op : LogicalOp} {tree : Tree} {parts : List Tree}
    (h : Joins op tree parts) (record : Record) :
    tree.evaluate record = op.settle (parts.map (·.evaluate record)) := by
  induction h with
  | single tree => simp
  | join _ _ ihl ihr =>
      rw [Tree.evaluate_operator, ihl, ihr, List.map_append, LogicalOp.settle_append]

/-- The trees of a queue join the parts of a sequence, one after the other. -/
inductive Queues (op : LogicalOp) : List MeasuredTree → List Tree → Prop where
  | nil : Queues op [] []
  | cons {t : MeasuredTree} {queue : List MeasuredTree} {parts rest : List Tree} :
      Joins op t.tree parts → Queues op queue rest → Queues op (t :: queue) (parts ++ rest)

theorem Queues.append {op : LogicalOp} {first second : List MeasuredTree}
    {parts rest : List Tree}
    (hf : Queues op first parts) (hs : Queues op second rest) :
    Queues op (first ++ second) (parts ++ rest) := by
  induction hf with
  | nil => exact hs
  | cons hj _ ih =>
      rw [List.append_assoc]
      exact .cons hj ih

/-- Trees queue for themselves. -/
theorem Queues.refl (op : LogicalOp) :
    ∀ trees : List Tree, Queues op (trees.map Tree.measured) trees
  | [] => .nil
  | tree :: rest => @Queues.cons op tree.measured _ _ _ (.single tree) (Queues.refl op rest)

/-! ## The reduction -/

namespace MeasuredTree

theorem join_eq_ok_iff {op : LogicalOp} {l r t : MeasuredTree} :
    join op l r = .ok t ↔ t = operator op l r ∧ t.height ≤ maxDepth := by
  rw [← join?_eq_some_iff, join]
  cases join? op l r <;> simp

/-- The joins of pairs of trees, from the front.  A tree without a partner is left out. -/
def pairs (op : LogicalOp) : List MeasuredTree → List MeasuredTree
  | left :: right :: rest => operator op left right :: pairs op rest
  | _ => []

/-- An even number of trees starts with a pair. -/
theorem exists_pair {trees : List MeasuredTree} {m : Nat} (h : trees.length = 2 * (m + 1)) :
    ∃ left right rest, trees = left :: right :: rest ∧ rest.length = 2 * m := by
  rcases trees with _ | ⟨left, _ | ⟨right, rest⟩⟩
  · simp at h
  · simp only [List.length_singleton] at h
    omega
  · simp only [List.length_cons] at h
    exact ⟨left, right, rest, rfl, by omega⟩

theorem length_pairs (op : LogicalOp) {trees : List MeasuredTree} {m : Nat}
    (hlen : trees.length = 2 * m) : (pairs op trees).length = m := by
  induction m generalizing trees with
  | zero =>
      rw [List.length_eq_zero_iff.1 hlen]
      rfl
  | succ m ih =>
      obtain ⟨left, right, rest, rfl, hrest⟩ := exists_pair hlen
      rw [pairs, List.length_cons, ih hrest]

/-- A round of the reduction joins pairs from the front of the queue and goes on with them at
its end, unless one of them is too high. -/
theorem reduce_pairs (op : LogicalOp) {front : List MeasuredTree} (back : List MeasuredTree)
    {m : Nat} (hlen : front.length = 2 * m) :
    reduce op (front ++ back) =
      ((pairs op front).find? (maxDepth < ·.height)).elim (reduce op (back ++ pairs op front))
        fun joined => .error (.tooDeep joined.height) := by
  induction m generalizing front back with
  | zero =>
      rw [List.length_eq_zero_iff.1 hlen]
      show reduce op back = reduce op (back ++ [])
      rw [List.append_nil]
  | succ m ih =>
      obtain ⟨left, right, front, rfl, hrest⟩ := exists_pair hlen
      rw [List.cons_append, List.cons_append, reduce, join, join?, pairs, List.find?_cons]
      by_cases hjoin : (operator op left right).height ≤ maxDepth
      · have hround := ih (back ++ [operator op left right]) hrest
        simp only [if_pos hjoin, Nat.not_lt.2 hjoin, decide_false]
        rw [List.append_assoc, hround, List.append_assoc]
        rfl
      · simp only [if_neg hjoin, Nat.not_le.1 hjoin, decide_true]
        rfl

/-- In a reduction that succeeds no join is too high. -/
theorem reduce_pairs_of_ok {op : LogicalOp} {front back : List MeasuredTree} {m : Nat}
    {tree : Tree} (hlen : front.length = 2 * m) (h : reduce op (front ++ back) = .ok tree) :
    reduce op (back ++ pairs op front) = .ok tree := by
  rw [reduce_pairs op back hlen] at h
  cases hfind : (pairs op front).find? (maxDepth < ·.height) with
  | none => rwa [hfind] at h
  | some joined =>
      rw [hfind] at h
      cases h

end MeasuredTree

/-- Pairs of a queue keep its sequence. -/
theorem Queues.pairs {op : LogicalOp} {front : List MeasuredTree} {parts : List Tree} {m : Nat}
    (hlen : front.length = 2 * m) (h : Queues op front parts) :
    Queues op (MeasuredTree.pairs op front) parts := by
  induction m generalizing front parts with
  | zero =>
      obtain rfl := List.length_eq_zero_iff.1 hlen
      exact h
  | succ m ih =>
      obtain ⟨l, r, front, rfl, hrest⟩ := MeasuredTree.exists_pair hlen
      cases h with
      | cons hl h =>
          cases h with
          | cons hr h =>
              rw [MeasuredTree.pairs, ← List.append_assoc]
              exact .cons (.join hl hr) (ih hrest h)

/-- Reducing a queue whose length is a power of two keeps its sequence. -/
theorem Queues.joins_of_reduce {op : LogicalOp} {queue : List MeasuredTree} {parts : List Tree}
    {tree : Tree} {k : Nat} (hlen : queue.length = 2 ^ k) (hq : Queues op queue parts)
    (h : MeasuredTree.reduce op queue = .ok tree) : Joins op tree parts := by
  induction k generalizing queue with
  | zero =>
      obtain ⟨last, rfl⟩ := List.length_eq_one_iff.1 hlen
      rw [MeasuredTree.reduce] at h
      cases h
      cases hq with
      | cons hj hq =>
          cases hq with
          | nil => rwa [List.append_nil]
  | succ k ih =>
      have hpairs : queue.length = 2 * 2 ^ k := by rw [hlen, Nat.pow_succ, Nat.mul_comm]
      have hstart : MeasuredTree.reduce op (queue ++ []) = .ok tree := by rwa [List.append_nil]
      exact ih (MeasuredTree.length_pairs op hpairs) (hq.pairs hpairs)
        (MeasuredTree.reduce_pairs_of_ok hpairs hstart)

/-- By how many places the reduction of `n` trees rotates them: twice as many as `n` is
above a power of two. -/
def rotation (n : Nat) : Nat := 2 * (n - 2 ^ n.log2)

theorem exists_rotation {n : Nat} (hn : n ≠ 0) :
    ∃ m, rotation n = 2 * m ∧ n = 2 ^ n.log2 + m ∧ m < 2 ^ n.log2 := by
  have hle : 2 ^ n.log2 ≤ n := Nat.log2_self_le hn
  have hlt : n < 2 ^ (n.log2 + 1) := Nat.lt_log2_self
  rw [Nat.pow_succ] at hlt
  exact ⟨n - 2 ^ n.log2, rfl, by omega, by omega⟩

/-- The reduction of trees joins them in order, rotated. -/
theorem Tree.joins_of_reduce {op : LogicalOp} {trees : List Tree} {tree : Tree}
    (h : MeasuredTree.reduce op (trees.map measured) = .ok tree) :
    Joins op tree (trees.rotate (rotation trees.length)) := by
  have hne : trees.length ≠ 0 := by
    intro h0
    rw [List.length_eq_zero_iff.1 h0, List.map_nil, MeasuredTree.reduce] at h
    cases h
  obtain ⟨m, hrotation, hlen, hm⟩ := exists_rotation hne
  let front := (trees.take (2 * m)).map measured
  let back := (trees.drop (2 * m)).map measured
  -- the trees above the power of two are paired first, with as many more
  have hfront : front.length = 2 * m := by
    rw [List.length_map, List.length_take]
    omega
  have hrest : (back ++ MeasuredTree.pairs op front).length = 2 ^ trees.length.log2 := by
    rw [List.length_append, List.length_map, List.length_drop,
      MeasuredTree.length_pairs op hfront]
    omega
  have hstart : MeasuredTree.reduce op (front ++ back) = .ok tree := by
    rwa [← List.map_append, List.take_append_drop]
  have hqueue := (Queues.refl op (trees.drop (2 * m))).append ((Queues.refl op _).pairs hfront)
  rw [hrotation, List.rotate_eq_drop_append_take (by omega)]
  exact hqueue.joins_of_reduce hrest (MeasuredTree.reduce_pairs_of_ok hfront hstart)

/-! ## The texts -/

/-- All texts are rules exactly if each is. -/
theorem Tree.parseAll_eq_ok_iff {texts : List String} {trees : List Tree} :
    Tree.parseAll texts = .ok trees ↔ texts.map Tree.parse = trees.map .ok := by
  induction texts generalizing trees with
  | nil =>
      rw [Tree.parseAll]
      cases trees <;> simp
  | cons text rest ih =>
      rw [Tree.parseAll, List.map_cons]
      cases Tree.parse text with
      | error e => cases trees <;> simp
      | ok tree =>
          cases trees with
          | nil => cases Tree.parseAll rest <;> simp [Except.map]
          | cons t ts =>
              rw [List.map_cons, List.cons.injEq, Except.ok.injEq, ← ih]
              cases Tree.parseAll rest <;> simp [Except.map]

/-- A combined rule joins the rules of the texts, rotated, by the operator of the
majority. -/
theorem Tree.joins_of_combine {texts : List String} {tree : Tree}
    (h : Tree.combine texts = .ok tree) :
    ∃ trees : List Tree, texts.map Tree.parse = trees.map .ok ∧
      Joins (LogicalOp.majority texts) tree (trees.rotate (rotation texts.length)) := by
  unfold Tree.combine at h
  split at h
  · cases h
  next trees ht =>
    have hmap := Tree.parseAll_eq_ok_iff.1 ht
    have hlen : texts.length = trees.length := by
      have := congrArg List.length hmap
      simpa only [List.length_map] using this
    refine ⟨trees, hmap, ?_⟩
    rw [hlen]
    exact Tree.joins_of_reduce h

end Rulebook
