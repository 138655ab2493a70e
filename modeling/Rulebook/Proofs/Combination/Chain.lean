import Mathlib.Data.List.Induction
import Rulebook.Proofs.Combination.Sequence
import Rulebook.Proofs.Process
import Rulebook.Proofs.Rule.Acceptance

/-!
# Where joining from left to right stops

`Tree.conjoin` reads a text, joins its rule to those before it and only then reads the next.
So it can stop at a text in two ways: the text is no rule, or its rule makes the join too high
(`Tree.Stops`).  Up to the first such text the rules are joined to their chain
(`Tree.Passes.exists_chain`), at it the error is determined, and the texts behind it are never
read (`Tree.conjoin_of_stops`).

Each rule of a chain is below the joins with all rules after it.  This gives the height of the
chain in closed form (`Tree.depth_chain`).
-/

namespace Rulebook

namespace Tree

/-! ## Chains -/

/-- Rules joined by AND from left to right. -/
def chain (first : Tree) (others : List Tree) : Tree := others.foldl (operator .and) first

/-- The greatest of the heights of rules, each with the number of joins above it: the first is
below all of them, another one below that with itself and those that follow. -/
def chainHeight (first : Tree) (others : List Tree) : Nat :=
  (others.mapIdx fun i tree => tree.depth + (others.length - i)).foldl max
    (first.depth + others.length)

theorem chain_concat (first : Tree) (others : List Tree) (last : Tree) :
    chain first (others ++ [last]) = operator .and (chain first others) last :=
  List.foldl_concat _ _ _ _

theorem depth_chain (first : Tree) (others : List Tree) :
    (chain first others).depth = chainHeight first others := by
  induction others generalizing first with
  | nil => rfl
  | cons tree rest ih =>
      -- the first two rules become one, which is below the joins that remain
      have hjoin : max (first.depth + (rest.length + 1)) (tree.depth + (rest.length + 1)) =
          (operator .and first tree).depth + rest.length := by
        rw [depth]
        omega
      have hshift : ∀ i, rest.length + 1 - (i + 1) = rest.length - i :=
        fun i => Nat.add_sub_add_right _ _ _
      rw [chain, List.foldl_cons]
      refine (ih (operator .and first tree)).trans ?_
      simp only [chainHeight, List.mapIdx_cons, List.length_cons, List.foldl_cons, hshift,
        Nat.sub_zero, hjoin]

theorem depth_le_depth_chain (first : Tree) (others : List Tree) :
    first.depth ≤ (chain first others).depth := by
  induction others generalizing first with
  | nil => exact Nat.le_refl _
  | cons tree rest ih => exact (depth_left_lt .and first tree).le.trans (ih _)

/-! ## Stops -/

/-- Joining the texts before a text succeeds, but it stops at this text with an error. -/
inductive Stops (before : List String) (text : String) : Error → Prop where
  /-- The text is no rule. -/
  | noRule {e : Error} : parse text = .error e → Stops before text e
  /-- The text is a rule behind others, and the chain with it is too high. -/
  | tooHigh {first : Tree} {others : List Tree} {last : Tree} :
      before.map parse = (first :: others).map .ok → parse text = .ok last →
      maxDepth < (chain first (others ++ [last])).depth →
      Stops before text (.tooDeep (maxDepth + 1))

/-- Joining texts stops at none of them. -/
def Passes (texts : List String) : Prop :=
  ∀ before text, before ++ [text] <+: texts → ∀ e, ¬ Stops before text e

theorem Passes.of_concat {texts : List String} {last : String} (h : Passes (texts ++ [last])) :
    Passes texts :=
  fun before text hpart => h before text (hpart.trans (List.prefix_append _ _))

/-- Texts that stop nothing are rules, and their chain is within the limit. -/
theorem Passes.exists_chain {texts : List String} (h : Passes texts) (hne : texts ≠ []) :
    ∃ first others, texts.map parse = (first :: others).map .ok ∧
      (chain first others).depth ≤ maxDepth := by
  induction texts using List.reverseRecOn with
  | nil => exact absurd rfl hne
  | append_singleton texts last ih =>
      have hlast : ∀ e, ¬ Stops texts last e := h texts last List.prefix_rfl
      obtain ⟨tree, hparse⟩ : ∃ tree, parse last = .ok tree := by
        cases hparse : parse last with
        | error e => exact absurd (.noRule hparse) (hlast e)
        | ok tree => exact ⟨tree, rfl⟩
      rcases eq_or_ne texts [] with rfl | htexts
      · exact ⟨tree, [], by simp [hparse], depth_of_parse hparse⟩
      · obtain ⟨first, others, hbefore, -⟩ := ih h.of_concat htexts
        refine ⟨first, others ++ [tree], ?_, ?_⟩
        · rw [List.map_append, hbefore]
          simp [hparse]
        · exact Nat.le_of_not_lt fun hhigh => hlast _ (.tooHigh hbefore hparse hhigh)

/-- Joining texts stops at the first text where it can, if there is one. -/
theorem passes_or_stops (texts : List String) :
    Passes texts ∨ ∃ before text after e,
      texts = before ++ text :: after ∧ Passes before ∧ Stops before text e := by
  -- from the end, since whether a text stops the joins depends on those before it
  induction texts using List.reverseRecOn with
  | nil => exact .inl fun before text hpart => by simp at hpart
  | append_singleton texts last ih =>
      rcases ih with hpasses | ⟨before, text, after, e, rfl, hpasses, hstops⟩
      · by_cases hlast : ∃ e, Stops texts last e
        · obtain ⟨e, hstops⟩ := hlast
          exact .inr ⟨texts, last, [], e, rfl, hpasses, hstops⟩
        · refine .inl fun before text hpart => ?_
          rcases List.prefix_concat_iff.1 hpart with hwhole | hwithin
          · obtain ⟨rfl, rfl⟩ : before = texts ∧ text = last := by simpa using hwhole
            exact not_exists.1 hlast
          · exact hpasses before text hwithin
      · exact .inr ⟨before, text, after ++ [last], e, by simp, hpasses, hstops⟩

/-! ## Joining texts -/

/-- Rules are joined to their chain as long as it is not too high. -/
theorem conjoinOnto_append {left : Tree} {texts : List String} {others : List Tree}
    (rest : List String) (hparse : texts.map parse = others.map .ok)
    (hlimit : (chain left others).depth ≤ maxDepth) :
    left.measured.conjoinOnto (texts ++ rest) = (chain left others).measured.conjoinOnto rest := by
  induction others generalizing left texts with
  | nil =>
      rw [List.map_eq_nil_iff.1 hparse]
      rfl
  | cons tree others ih =>
      obtain ⟨text, texts, rfl, htext, hothers⟩ := List.map_eq_cons_iff.1 hparse
      have hjoin : MeasuredTree.join .and left.measured tree.measured =
          .ok (operator .and left tree).measured :=
        MeasuredTree.join_eq_ok_iff.2 ⟨rfl, (depth_le_depth_chain _ others).trans hlimit⟩
      rw [List.cons_append, MeasuredTree.conjoinOnto, htext]
      simp only [hjoin]
      exact ih hothers hlimit

theorem conjoin_append {first : Tree} {texts : List String} {others : List Tree}
    (rest : List String) (hparse : texts.map parse = (first :: others).map .ok)
    (hlimit : (chain first others).depth ≤ maxDepth) :
    conjoin (texts ++ rest) = (chain first others).measured.conjoinOnto rest := by
  obtain ⟨text, texts, rfl, htext, hothers⟩ := List.map_eq_cons_iff.1 hparse
  rw [List.cons_append, conjoin, htext]
  exact conjoinOnto_append rest hothers hlimit

theorem conjoin_of_chain {first : Tree} {texts : List String} {others : List Tree}
    (hparse : texts.map parse = (first :: others).map .ok)
    (hlimit : (chain first others).depth ≤ maxDepth) :
    conjoin texts = .ok (chain first others) := by
  have h := conjoin_append [] hparse hlimit
  rwa [List.append_nil] at h

/-- A join that is too high is so by one, if its sides are not. -/
theorem join_of_lt {op : LogicalOp} {l r : Tree} (hl : l.depth ≤ maxDepth)
    (hr : r.depth ≤ maxDepth) (h : maxDepth < (operator op l r).depth) :
    MeasuredTree.join op l.measured r.measured = .error (.tooDeep (maxDepth + 1)) := by
  have hdepth : (operator op l r).depth = maxDepth + 1 := by
    rw [depth] at h ⊢
    omega
  rw [MeasuredTree.join, MeasuredTree.join?, MeasuredTree.operator_measured, height_measured,
    if_neg (Nat.not_le.2 h), hdepth]

/-- The first text that stops the joins gives the error, whatever follows it. -/
theorem conjoin_of_stops {before : List String} {text : String} {e : Error}
    (hpasses : Passes before) (hstops : Stops before text e) (after : List String) :
    conjoin (before ++ text :: after) = .error e := by
  cases hstops with
  | noRule hnone =>
      rcases eq_or_ne before [] with rfl | hne
      · rw [List.nil_append, conjoin, hnone]
      · obtain ⟨first, others, hbefore, hlimit⟩ := hpasses.exists_chain hne
        rw [conjoin_append _ hbefore hlimit, MeasuredTree.conjoinOnto, hnone]
  | @tooHigh first others last hbefore hlast hhigh =>
      have hne : before ≠ [] := by
        rintro rfl
        cases hbefore
      obtain ⟨first', others', hbefore', hlimit⟩ := hpasses.exists_chain hne
      obtain ⟨rfl, rfl⟩ : first' = first ∧ others' = others := by
        have hsame := hbefore'.symm.trans hbefore
        simpa using List.map_injective_iff.2 (fun _ _ => Except.ok.inj) hsame
      rw [chain_concat] at hhigh
      rw [conjoin_append _ hbefore hlimit, MeasuredTree.conjoinOnto, hlast]
      simp only [join_of_lt hlimit (depth_of_parse hlast) hhigh]

/-- Joining texts gives the chain of their rules or the error of the first text that stops it. -/
theorem conjoin_cases {texts : List String} (hne : texts ≠ []) :
    (∃ first others, texts.map parse = (first :: others).map .ok ∧
      (chain first others).depth ≤ maxDepth ∧ conjoin texts = .ok (chain first others)) ∨
    ∃ before text after e, texts = before ++ text :: after ∧ Passes before ∧
      Stops before text e ∧ conjoin texts = .error e := by
  rcases passes_or_stops texts with hpasses | ⟨before, text, after, e, rfl, hpasses, hstops⟩
  · obtain ⟨first, others, hparse, hlimit⟩ := hpasses.exists_chain hne
    exact .inl ⟨first, others, hparse, hlimit, conjoin_of_chain hparse hlimit⟩
  · exact .inr ⟨before, text, after, e, rfl, hpasses, hstops, conjoin_of_stops hpasses hstops after⟩

/-- Texts that are joined to a rule stop at none of them. -/
theorem passes_of_conjoin {texts : List String} {tree : Tree} (h : conjoin texts = .ok tree) :
    Passes texts := by
  rcases passes_or_stops texts with hpasses | ⟨_, _, after, _, rfl, hpasses, hstops⟩
  · exact hpasses
  · rw [conjoin_of_stops hpasses hstops after] at h
    cases h

end Tree

/-- After any calls, joining texts by AND gives exactly the chain of their rules, if all texts
are rules and the chain is within the limit; its height is the greatest of theirs, each with
the joins above it.  It gives an error exactly if it stops with this error at a text and at none
before, whatever the texts behind. -/
theorem Process.conjoin_stops_first (calls : List Call) {texts : List String} (hne : texts ≠ []) :
    let conjoined := ((start.after calls).cache.conjoin texts).1
    (∀ tree, conjoined = .ok tree ↔
      ∃ first others, texts.map Tree.parse = (first :: others).map .ok ∧
        Tree.chainHeight first others ≤ maxDepth ∧
        tree = Tree.chain first others ∧ tree.depth = Tree.chainHeight first others) ∧
      ∀ e, conjoined = .error e ↔
        ∃ before text after, texts = before ++ text :: after ∧
          Tree.Passes before ∧ Tree.Stops before text e := by
  intro conjoined
  have hsound : (start.after calls).cache.Sound := sound_after (.of_empty rfl) calls
  have hplain : conjoined = Tree.conjoin texts := (hsound.conjoin texts).1
  rw [hplain]
  refine ⟨fun tree => ⟨fun h => ?_, ?_⟩, fun e => ⟨fun h => ?_, ?_⟩⟩
  · rcases Tree.conjoin_cases hne with ⟨first, others, hparse, hlimit, hchain⟩ |
      ⟨_, _, _, _, -, -, -, herror⟩
    · cases hchain.symm.trans h
      rw [Tree.depth_chain] at hlimit
      exact ⟨first, others, hparse, hlimit, rfl, Tree.depth_chain first others⟩
    · cases herror.symm.trans h
  · rintro ⟨first, others, hparse, hlimit, rfl, hdepth⟩
    exact Tree.conjoin_of_chain hparse (hdepth ▸ hlimit)
  · rcases Tree.conjoin_cases hne with ⟨_, _, -, -, hchain⟩ |
      ⟨before, text, after, _, heq, hpasses, hstops, herror⟩
    · cases hchain.symm.trans h
    · cases herror.symm.trans h
      exact ⟨before, text, after, heq, hpasses, hstops⟩
  · rintro ⟨before, text, after, rfl, hpasses, hstops⟩
    exact Tree.conjoin_of_stops hpasses hstops after

/-- Three rules, the last one the highest; one rule more than can be joined, before a text that
is no rule; and such a text before as many rules. -/
theorem Process.conjoin_stops_first_three :
    let conjoin (texts : List String) := ((start.after [.clear]).cache.conjoin texts).1
    let many := List.replicate 100 "a = 1"
    (∃ tree, tree.depth = 5 ∧
        conjoin ["a = 1", "b = 2 OR b = 3", "c = 4 AND (d = 5 OR e = 6 AND f = 7)"] = .ok tree) ∧
      conjoin (many ++ "b = 2" :: ["c >"]) = .error (.tooDeep 101) ∧
      conjoin (["a = 1"] ++ "c >" :: many) = .error (.syntaxFault 2 (.expectedValue none)) := by
  intro conjoin many
  let leaf (field : String) (i : Int64) : Tree := .leaf ⟨field, .equal, .int i⟩
  have hleaf : Tree.parse "a = 1" = .ok (leaf "a" 1) := by decide +kernel
  have hone : Tree.Passes ["a = 1"] := by
    have hconjoin : Tree.conjoin ["a = 1"] = .ok (leaf "a" 1) := by rw [Tree.conjoin, hleaf]; rfl
    exact Tree.passes_of_conjoin hconjoin
  have hparse : many.map Tree.parse = (List.replicate 100 (leaf "a" 1)).map .ok := by
    rw [List.map_replicate, hleaf, List.map_replicate]
  have hmany : Tree.Passes many :=
    Tree.passes_of_conjoin (Tree.conjoin_of_chain hparse (by decide +kernel))
  obtain ⟨hok, -⟩ := conjoin_stops_first [.clear]
    (List.cons_ne_nil "a = 1" ["b = 2 OR b = 3", "c = 4 AND (d = 5 OR e = 6 AND f = 7)"])
  obtain ⟨-, hhigh⟩ := conjoin_stops_first [.clear]
    (List.append_ne_nil_of_right_ne_nil many (List.cons_ne_nil "b = 2" ["c >"]))
  obtain ⟨-, hfault⟩ := conjoin_stops_first [.clear]
    (List.append_ne_nil_of_right_ne_nil ["a = 1"] (List.cons_ne_nil "c >" many))
  refine ⟨?_, ?_, ?_⟩
  · let others : List Tree := [.operator .or (leaf "b" 2) (leaf "b" 3),
      .operator .and (leaf "c" 4)
        (.operator .and (.operator .or (leaf "d" 5) (leaf "e" 6)) (leaf "f" 7))]
    refine ⟨Tree.chain (leaf "a" 1) others, ?_, (hok _).2 ⟨leaf "a" 1, others, ?_, ?_, rfl, ?_⟩⟩
    all_goals decide +kernel
  · refine (hhigh _).2 ⟨many, "b = 2", ["c >"], rfl, hmany, ?_⟩
    have hlast : Tree.parse "b = 2" = .ok (leaf "b" 2) := by decide +kernel
    exact .tooHigh hparse hlast (by decide +kernel)
  · exact (hfault _).2 ⟨["a = 1"], "c >", many, rfl, hone, .noRule (by decide +kernel)⟩

end Rulebook
