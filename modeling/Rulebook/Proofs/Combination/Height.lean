import Mathlib.Data.Nat.Log
import Rulebook.Proofs.Combination.Sequence
import Rulebook.Proofs.Process
import Rulebook.Proofs.Rule.Display

/-!
# The height of combined rules

A round of the reduction joins pairs from the front of the queue.  The highest join is higher by
one than the highest tree (`MeasuredTree.highest_pairs`), and the round fails exactly if it is
above the limit (`MeasuredTree.Builds.of_round`).  A queue whose length is a power of two is
joined whole in each round (`MeasuredTree.builds_reduce_of_pow`); the trees above the power of
two have been joined once before.  So the heights of the trees determine that of the combined
rule, and whether it is within the limit (`MeasuredTree.builds_reduce`).

The height grows with the logarithm of the number of trees
(`MeasuredTree.combinedHeight_le`, `Process.combine_stays_shallow`).
-/

namespace Rulebook

namespace MeasuredTree

/-! ## The highest of several trees -/

/-- The height of the highest of some trees. -/
def highest : List MeasuredTree → Nat
  | [] => 0
  | tree :: rest => max tree.height (highest rest)

theorem highest_append (first second : List MeasuredTree) :
    highest (first ++ second) = max (highest first) (highest second) := by
  induction first with
  | nil => exact (Nat.zero_max _).symm
  | cons tree rest ih => rw [List.cons_append, highest, highest, ih, Nat.max_assoc]

theorem highest_le_iff {trees : List MeasuredTree} {h : Nat} :
    highest trees ≤ h ↔ ∀ tree ∈ trees, tree.height ≤ h := by
  induction trees with
  | nil => simp [highest]
  | cons tree rest ih => rw [highest, Nat.max_le, ih, List.forall_mem_cons]

theorem highest_eq {trees : List MeasuredTree} {h : Nat} (hne : trees ≠ [])
    (hall : ∀ tree ∈ trees, tree.height = h) : highest trees = h := by
  cases trees with
  | nil => exact absurd rfl hne
  | cons tree rest =>
      have hrest : highest rest ≤ h := highest_le_iff.2 fun t ht => (hall t (.tail _ ht)).le
      rw [highest, hall tree (.head _), Nat.max_eq_left hrest]

theorem height_pos (tree : MeasuredTree) : 0 < tree.height := by
  rw [tree.height_eq]
  cases tree.tree with
  | leaf c => exact Nat.zero_lt_one
  | operator op left right => exact Nat.succ_pos _

theorem highest_pos {trees : List MeasuredTree} (hne : trees ≠ []) : 0 < highest trees := by
  cases trees with
  | nil => exact absurd rfl hne
  | cons tree rest => exact Nat.lt_of_lt_of_le tree.height_pos (Nat.le_max_left _ _)

/-! ## Pairs -/

/-- The highest of the joins is higher by one than the highest tree. -/
theorem highest_pairs (op : LogicalOp) {trees : List MeasuredTree} {m : Nat}
    (hlen : trees.length = 2 * (m + 1)) : highest (pairs op trees) = highest trees + 1 := by
  induction m generalizing trees with
  | zero =>
      obtain ⟨left, right, rest, rfl, hrest⟩ := exists_pair hlen
      rw [List.length_eq_zero_iff.1 hrest]
      simp [pairs, highest]
  | succ m ih =>
      obtain ⟨left, right, rest, rfl, hrest⟩ := exists_pair hlen
      rw [pairs, highest, highest, highest, ih hrest, height_operator]
      omega

/-! ## The height of the result -/

/-- What comes of making a rule of a height: the rule if it is within the limit, and otherwise
an error that blames the first join above it. -/
inductive Builds (height : Nat) : Except Error Tree → Prop where
  | rule {tree : Tree} : tree.depth = height → height ≤ maxDepth → Builds height (.ok tree)
  | tooHigh : maxDepth < height → Builds height (.error (.tooDeep (maxDepth + 1)))

/-- Where a round makes joins that are too high, they are so by one. -/
theorem Builds.of_round {joins : List MeasuredTree} {height : Nat} {outcome : Except Error Tree}
    (hjoins : highest joins ≤ maxDepth + 1) (hheight : highest joins ≤ height)
    (h : highest joins ≤ maxDepth → Builds height outcome) :
    Builds height ((joins.find? (maxDepth < ·.height)).elim outcome
      fun joined => .error (.tooDeep joined.height)) := by
  cases hfind : joins.find? (maxDepth < ·.height) with
  | none =>
      refine h (highest_le_iff.2 fun tree htree => ?_)
      simpa using List.find?_eq_none.1 hfind tree htree
  | some joined =>
      have hhigh : maxDepth < joined.height := by simpa using List.find?_some hfind
      have hdepth := highest_le_iff.1 (Nat.le_refl (highest joins)) joined
        (List.mem_of_find?_eq_some hfind)
      have hone : joined.height = maxDepth + 1 := by omega
      rw [Option.elim_some, hone]
      exact .tooHigh (by omega)

/-- Where the length of a queue is a power of two, every round makes it half as long and higher
by one. -/
theorem builds_reduce_of_pow (op : LogicalOp) {queue : List MeasuredTree} {k : Nat}
    (hlen : queue.length = 2 ^ k) (hqueue : highest queue ≤ maxDepth) :
    Builds (highest queue + k) (reduce op queue) := by
  induction k generalizing queue with
  | zero =>
      obtain ⟨tree, rfl⟩ := List.length_eq_one_iff.1 hlen
      rw [reduce]
      exact .rule (tree.height_eq.symm.trans (Nat.max_zero _).symm) hqueue
  | succ k ih =>
      have hhalf : queue.length = 2 * 2 ^ k := by rw [hlen, Nat.pow_succ, Nat.mul_comm]
      obtain ⟨m, hm⟩ : ∃ m, 2 ^ k = m + 1 :=
        Nat.exists_eq_succ_of_ne_zero (Nat.two_pow_pos k).ne'
      have hhighest : highest (pairs op queue) = highest queue + 1 :=
        highest_pairs op (hm ▸ hhalf)
      have hround := reduce_pairs op [] hhalf
      rw [List.append_nil, List.nil_append] at hround
      rw [hround]
      refine .of_round (by omega) (by omega) fun hpairs => ?_
      have hbuilds := ih (length_pairs op hhalf) hpairs
      rw [hhighest] at hbuilds
      rwa [Nat.add_right_comm, Nat.add_assoc] at hbuilds

/-- The height of the rule that trees are combined to. -/
def combinedHeight (trees : List MeasuredTree) : Nat :=
  max (highest (trees.take (rotation trees.length)) + 1)
    (highest (trees.drop (rotation trees.length))) + trees.length.log2

theorem highest_append_pairs (op : LogicalOp) {front back : List MeasuredTree} {m : Nat}
    (hlen : front.length = 2 * m) (hback : back ≠ []) :
    highest (back ++ pairs op front) = max (highest front + 1) (highest back) := by
  rw [highest_append]
  cases m with
  | zero =>
      -- Without pairs nothing is joined, and what is left is no lower than a leaf.
      have hpos := highest_pos hback
      obtain rfl := List.length_eq_zero_iff.1 hlen
      simp only [pairs, highest]
      omega
  | succ m => rw [highest_pairs op hlen, Nat.max_comm]

/-- The reduction of trees within the limit makes a rule of the height that their heights
determine. -/
theorem builds_reduce (op : LogicalOp) {trees : List MeasuredTree} (hne : trees ≠ [])
    (htrees : highest trees ≤ maxDepth) : Builds (combinedHeight trees) (reduce op trees) := by
  obtain ⟨m, hrotation, hlen, hm⟩ := exists_rotation (mt List.length_eq_zero_iff.1 hne)
  have hfrontLength : (trees.take (2 * m)).length = 2 * m := by
    rw [List.length_take]
    omega
  have hback : trees.drop (2 * m) ≠ [] := by
    rw [ne_eq, List.drop_eq_nil_iff]
    omega
  have hlimits : highest (trees.take (2 * m)) ≤ maxDepth ∧
      highest (trees.drop (2 * m)) ≤ maxDepth := by
    rw [← Nat.max_le, ← highest_append, List.take_append_drop]
    exact htrees
  have hhighest := highest_append_pairs op hfrontLength hback
  have hjoins : highest (pairs op (trees.take (2 * m))) ≤
      highest (trees.drop (2 * m) ++ pairs op (trees.take (2 * m))) := by
    rw [highest_append]
    exact Nat.le_max_right _ _
  have hround := reduce_pairs op (trees.drop (2 * m)) hfrontLength
  rw [List.take_append_drop] at hround
  rw [combinedHeight, hrotation, ← hhighest, hround]
  refine .of_round (by omega) (by omega) fun hpairs => builds_reduce_of_pow op ?_ ?_
  · rw [List.length_append, List.length_drop, length_pairs op hfrontLength]
    omega
  · rw [highest_append]
    exact Nat.max_le.2 ⟨hlimits.2, hpairs⟩

/-! ## Growth with the number of trees -/

theorem clog_eq_log2_add {n : Nat} (hn : n ≠ 0) :
    Nat.clog 2 n = n.log2 + if rotation n = 0 then 0 else 1 := by
  obtain ⟨m, hrotation, hlen, hm⟩ := exists_rotation hn
  rw [hrotation]
  split
  next hzero =>
    have hpow : n = 2 ^ n.log2 := by omega
    have hclog := Nat.clog_pow 2 n.log2 Nat.one_lt_two
    rwa [← hpow] at hclog
  next hpos =>
    refine Nat.le_antisymm ?_ ?_
    · rw [Nat.clog_le_iff_le_pow Nat.one_lt_two, Nat.pow_succ]
      omega
    · rw [Nat.succ_le_iff, Nat.lt_clog_iff_pow_lt Nat.one_lt_two]
      omega

/-- Trees up to a height are combined to a rule that is higher at most by the logarithm of their
number, rounded up. -/
theorem combinedHeight_le {trees : List MeasuredTree} {h : Nat} (hne : trees ≠ [])
    (hall : ∀ tree ∈ trees, tree.height ≤ h) :
    combinedHeight trees ≤ h + Nat.clog 2 trees.length := by
  have htake : highest (trees.take (rotation trees.length)) ≤ h :=
    highest_le_iff.2 fun t ht => hall t (List.mem_of_mem_take ht)
  have hdrop : highest (trees.drop (rotation trees.length)) ≤ h :=
    highest_le_iff.2 fun t ht => hall t (List.mem_of_mem_drop ht)
  rw [combinedHeight, clog_eq_log2_add (mt List.length_eq_zero_iff.1 hne)]
  split
  next hzero =>
    have hpos : 0 < h := Nat.lt_of_lt_of_le (highest_pos hne) (highest_le_iff.2 hall)
    rw [hzero, List.take_zero, highest]
    rw [hzero] at hdrop
    omega
  next => omega

/-- Trees of one height are combined to a rule that is higher by just that. -/
theorem combinedHeight_eq {trees : List MeasuredTree} {h : Nat} (hne : trees ≠ [])
    (hall : ∀ tree ∈ trees, tree.height = h) :
    combinedHeight trees = h + Nat.clog 2 trees.length := by
  have hdrop : highest (trees.drop (rotation trees.length)) ≤ h :=
    highest_le_iff.2 fun t ht => (hall t (List.mem_of_mem_drop ht)).le
  rw [combinedHeight, clog_eq_log2_add (mt List.length_eq_zero_iff.1 hne)]
  split
  next hzero =>
    have hpos : 0 < h := highest_eq hne hall ▸ highest_pos hne
    rw [hzero, List.take_zero, List.drop_zero, highest_eq hne hall, highest]
    omega
  next hrotation =>
    have htake : trees.take (rotation trees.length) ≠ [] := by
      simp [hrotation, hne]
    rw [highest_eq htake fun t ht => hall t (List.mem_of_mem_take ht)]
    omega

end MeasuredTree

/-! ## Texts -/

namespace Tree

/-- A text that is no rule has another fault than the height of a combination. -/
theorem parse_ne_tooDeep (text : String) (depth : Nat) :
    parse text ≠ .error (.tooDeep depth) := by
  intro h
  rw [parse, Token.scan] at h
  split at h
  next hscan =>
    cases h
    split at hscan <;> cases hscan
  next tokens _ =>
    rw [ofTokens] at h
    split at h
    next => cases h
    next =>
      split at h
      next => cases h
      next => split at h <;> cases h

theorem parseAll_of_error {before after : List String} {text : String} {e : Error}
    (hbefore : ∀ other ∈ before, ∃ tree, parse other = .ok tree)
    (h : parse text = .error e) : parseAll (before ++ text :: after) = .error e := by
  induction before with
  | nil => rw [List.nil_append, parseAll, h]
  | cons other before ih =>
      obtain ⟨⟨tree, htree⟩, hbefore⟩ := List.forall_mem_cons.1 hbefore
      rw [List.cons_append, parseAll, htree, ih hbefore]
      rfl

theorem exists_parse_of_parseAll_eq_error {texts : List String} {e : Error}
    (h : parseAll texts = .error e) : ∃ text, parse text = .error e := by
  induction texts with
  | nil => cases h
  | cons text rest ih =>
      rw [parseAll] at h
      split at h
      next hparse =>
        cases h
        exact ⟨text, hparse⟩
      next =>
        cases hrest : parseAll rest with
        | error e' =>
            rw [hrest] at h
            cases h
            exact ih hrest
        | ok trees =>
            rw [hrest] at h
            cases h

/-- Texts that are rules are combined to a rule of the height that their heights determine. -/
theorem builds_combine {texts : List String} {trees : List Tree} (hne : texts ≠ [])
    (h : texts.map parse = trees.map .ok) :
    MeasuredTree.Builds (MeasuredTree.combinedHeight (trees.map measured)) (combine texts) := by
  have htrees : trees ≠ [] := by
    rintro rfl
    exact hne (List.map_eq_nil_iff.1 h)
  rw [combine, parseAll_eq_ok_iff.2 h]
  refine MeasuredTree.builds_reduce _ (mt List.map_eq_nil_iff.1 htrees)
    (MeasuredTree.highest_le_iff.2 (List.forall_mem_map.2 fun tree htree => ?_))
  obtain ⟨text, -, hparse⟩ := List.mem_map.1 (h ▸ List.mem_map_of_mem (f := Except.ok) htree)
  exact depth_of_parse hparse

end Tree

/-- After any calls, rules up to a height are combined to a rule that is higher at most by the
logarithm of their number, rounded up, if that is within the limit; and by just that if all have
this height.  Where the combination is too high, all texts are rules, and it is one too high.
Where a text is no rule, the first such text is at fault. -/
theorem Process.combine_stays_shallow (calls : List Call) (texts : List String) :
    let combined := ((start.after calls).cache.combine texts).1
    (∀ (trees : List Tree) (h : Nat), texts ≠ [] → texts.map Tree.parse = trees.map .ok →
      (∀ tree ∈ trees, tree.depth ≤ h) → h + Nat.clog 2 texts.length ≤ maxDepth →
      ∃ tree, combined = .ok tree ∧ tree.depth ≤ h + Nat.clog 2 texts.length ∧
        ((∀ t ∈ trees, t.depth = h) → tree.depth = h + Nat.clog 2 texts.length)) ∧
    (∀ depth, combined = .error (.tooDeep depth) →
      (∀ text ∈ texts, ∃ tree, Tree.parse text = .ok tree) ∧ depth = maxDepth + 1) ∧
    ∀ before text after e, texts = before ++ text :: after →
      (∀ other ∈ before, ∃ tree, Tree.parse other = .ok tree) →
      Tree.parse text = .error e → combined = .error e := by
  intro combined
  have hsound : (start.after calls).cache.Sound := sound_after (.of_empty rfl) calls
  have hplain : combined = Tree.combine texts := (hsound.combine texts).1
  rw [hplain]
  refine ⟨?_, ?_, ?_⟩
  · intro trees h hne hparse hall hlimit
    have htrees : trees ≠ [] := by
      rintro rfl
      exact hne (List.map_eq_nil_iff.1 hparse)
    have hlength : texts.length = trees.length := by
      simpa only [List.length_map] using congrArg List.length hparse
    have hmeasured : trees.map Tree.measured ≠ [] := mt List.map_eq_nil_iff.1 htrees
    have hbound := MeasuredTree.combinedHeight_le hmeasured (List.forall_mem_map.2 hall)
    rw [List.length_map] at hbound
    rw [hlength] at hlimit ⊢
    have hbuilds := Tree.builds_combine hne hparse
    generalize Tree.combine texts = outcome at hbuilds
    cases hbuilds with
    | @rule tree hdepth _ =>
        refine ⟨tree, rfl, hdepth ▸ hbound, fun heq => ?_⟩
        rw [hdepth, MeasuredTree.combinedHeight_eq hmeasured (List.forall_mem_map.2 heq),
          List.length_map]
    | tooHigh hhigh => omega
  · intro depth hcombine
    cases hall : Tree.parseAll texts with
    | error e =>
        rw [Tree.combine, hall] at hcombine
        cases hcombine
        obtain ⟨text, hparse⟩ := Tree.exists_parse_of_parseAll_eq_error hall
        exact absurd hparse (Tree.parse_ne_tooDeep text depth)
    | ok trees =>
        have hparse := Tree.parseAll_eq_ok_iff.1 hall
        refine ⟨?_, ?_⟩
        · intro text htext
          obtain ⟨tree, -, htree⟩ := List.mem_map.1 (hparse ▸ List.mem_map_of_mem htext)
          exact ⟨tree, htree.symm⟩
        · have hne : texts ≠ [] := by
            rintro rfl
            simp [Tree.combine, Tree.parseAll, MeasuredTree.reduce] at hcombine
          have hbuilds := Tree.builds_combine hne hparse
          rw [hcombine] at hbuilds
          cases hbuilds
          rfl
  · rintro before text after e rfl hbefore herror
    rw [Tree.combine, Tree.parseAll_of_error hbefore herror]

/-- Three rules of height one, a rule of the greatest height with one more, and a text that is no
rule before another. -/
theorem Process.combine_stays_shallow_three :
    let leaf (field : String) (i : Int64) : Tree := .leaf ⟨field, .equal, .int i⟩
    let chain := (List.replicate 99 (leaf "a" 1)).foldl (.operator .and) (leaf "a" 1)
    (∃ tree, ((start.after [.clear]).cache.combine ["a = 1", "b = 2", "c = 3"]).1 = .ok tree ∧
        tree.depth = 3) ∧
      ((start.after [.clear]).cache.combine [chain.display, "b = 2"]).1 = .error (.tooDeep 101) ∧
      (∃ tree, Tree.parse chain.display = .ok tree) ∧
      ((start.after [.clear]).cache.combine ["a = 1", "b >", ""]).1 =
        .error (.syntaxFault 2 (.expectedValue none)) := by
  intro leaf chain
  have hfirstLeaf : Tree.parse "a = 1" = .ok (leaf "a" 1) := by decide +kernel
  have hleaf : Tree.parse "b = 2" = .ok (leaf "b" 2) := by decide +kernel
  have hfault : Tree.parse "b >" = .error (.syntaxFault 2 (.expectedValue none)) := by
    decide +kernel
  have hchain : Tree.parse chain.display = .ok chain := by
    refine (Tree.isLegible_of_forall (by decide +kernel) ?_).parse_eq_ok (by decide +kernel)
    have hliterals : chain.literals = List.replicate 100 (.int 1) := by decide +kernel
    rw [hliterals]
    intro v hv
    rw [List.eq_of_mem_replicate hv]
    exact .int 1
  have hdepth : ∀ tree ∈ [leaf "a" 1, leaf "b" 2, leaf "c" 3], tree.depth = 1 := by decide
  have hclog : 1 + Nat.clog 2 3 = 3 := by decide +kernel
  obtain ⟨hshallow, -⟩ := combine_stays_shallow [.clear] ["a = 1", "b = 2", "c = 3"]
  obtain ⟨-, htooDeep, -⟩ := combine_stays_shallow [.clear] [chain.display, "b = 2"]
  obtain ⟨-, -, hfirst⟩ := combine_stays_shallow [.clear] ["a = 1", "b >", ""]
  have hhigh : ((start.after [.clear]).cache.combine [chain.display, "b = 2"]).1 =
      .error (.tooDeep 101) := by
    have hsound : (start.after [.clear]).cache.Sound := sound_after (.of_empty rfl) _
    have hplain := (hsound.combine [chain.display, "b = 2"]).1
    have hcombined : MeasuredTree.combinedHeight ([chain, leaf "b" 2].map Tree.measured) = 101 := by
      decide +kernel
    have hbuilds : MeasuredTree.Builds 101 (Tree.combine [chain.display, "b = 2"]) := by
      rw [← hcombined]
      exact Tree.builds_combine (List.cons_ne_nil _ _) (by simp only [List.map, hchain, hleaf])
    rw [hplain]
    generalize Tree.combine [chain.display, "b = 2"] = outcome at hbuilds
    cases hbuilds with
    | rule _ hlimit => exact absurd hlimit (by decide)
    | tooHigh _ => rfl
  obtain ⟨tree, htree, -, hexact⟩ := hshallow _ 1 (by decide) (by decide +kernel)
    (fun tree ht => (hdepth tree ht).le) (by decide +kernel)
  refine ⟨⟨tree, htree, (hexact hdepth).trans hclog⟩, hhigh,
    (htooDeep 101 hhigh).1 chain.display (.head _), ?_⟩
  refine hfirst ["a = 1"] "b >" [""] _ rfl ?_ hfault
  exact List.forall_mem_singleton.2 ⟨leaf "a" 1, hfirstLeaf⟩

end Rulebook
