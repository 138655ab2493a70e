import Rulebook.Proofs.Rule.Reading

/-!
# The rules that are read

Every rule of the grammar is read token by token, unless it is higher than the limit or
nests its parentheses deeper (`IsRule.steps_or_exceeds`); and whatever is read is such a rule
(`Tree.isRule_of_ofTokens`, `Tree.nestsWithin_of_ofTokens`).  So the reading of tokens
succeeds exactly on the rules within the limits (`Tree.ofTokens_eq_ok_iff`).
-/

namespace Rulebook

/-! ## Rules are read -/

/-- The limit that a rule exceeds where `outer` parentheses are open, as a fault. -/
inductive Exceeds (outer : Nat) (tokens : List Token) (tree : Tree) : RuleFault → Prop where
  | height : maxDepth < tree.depth → Exceeds outer tokens tree .tooHigh
  | nesting : ¬ NestsWithin outer tokens → Exceeds outer tokens tree .tooManyParentheses

/-- What exceeds a limit as part of a rule makes the whole rule exceed it. -/
theorem Exceeds.whole {outer inner : Nat} {part tokens : List Token} {partTree tree : Tree}
    {fault : RuleFault} (h : Exceeds inner part partTree fault)
    (hd : partTree.depth ≤ tree.depth) (hn : NestsWithin outer tokens → NestsWithin inner part) :
    Exceeds outer tokens tree fault := by
  cases h with
  | height hlt => exact .height (Nat.lt_of_lt_of_le hlt hd)
  | nesting hnot => exact .nesting fun hall => hnot (hn hall)

mutual

/-- Where a rule may start, reading its tokens leads to its tree, or stops at a limit that
the rule exceeds. -/
theorem IsRule.steps_or_exceeds : ∀ {tokens : List Token} {tree : Tree}, IsRule tokens tree →
    ∀ (position : Nat) (levels : List (Option Join)),
      Reading.steps ⟨position, levels, .term none⟩ tokens =
          .ok ⟨position + tokens.length, levels, .rule tree.measured⟩ ∨
        ∃ place fault, Exceeds levels.length tokens tree fault ∧
          Reading.steps ⟨position, levels, .term none⟩ tokens = .error (place, fault)
  | _, _, .term ht, position, levels => ht.steps_or_exceeds position levels none
  | _, _, @IsRule.join left right op l r hl hr, position, levels => by
      have hdl := Nat.le_of_lt (Tree.depth_left_lt op l r)
      have hdr := Nat.le_of_lt (Tree.depth_right_lt op l r)
      rw [Reading.steps_append]
      rcases hl.steps_or_exceeds position levels with hleft | ⟨place, fault, he, hleft⟩
      · rw [hleft]
        simp only [Except.bind, Reading.steps, Reading.step, LogicalOp.ofKeyword?_keyword]
        rcases hr.steps_or_exceeds (position + left.length + 1) levels
          (some ⟨l.measured, op, position + left.length⟩) with hright | ⟨place, fault, he, hright⟩
        · rw [hright]
          by_cases hd : (Tree.operator op l r).depth ≤ maxDepth
          · have hjoin : MeasuredTree.join? op l.measured r.measured =
                some (Tree.operator op l r).measured := MeasuredTree.join?_of_height_le hd
            refine .inl ?_
            simp only [Reading.completed, hjoin, Except.map, List.length_append,
              List.length_cons]
            rw [show position + left.length + 1 + right.length =
              position + (left.length + (right.length + 1)) by omega]
          · refine .inr ⟨position + left.length, _, .height (Nat.lt_of_not_le hd), ?_⟩
            have hjoin : MeasuredTree.join? op l.measured r.measured = none :=
              MeasuredTree.join?_eq_none_iff.2 (Nat.lt_of_not_le hd)
            simp only [Reading.completed, hjoin, Except.map]
        · refine .inr ⟨place, fault, he.whole hdr fun hn => ?_, hright⟩
          have hrest : NestsWithin levels.length (op.keyword :: right) :=
            hn.of_balanced hl.openParentheses
          exact @NestsWithin.of_balanced levels.length [op.keyword] right hrest (by simp)
      · rw [hleft]
        exact .inr ⟨place, fault, he.whole hdl fun hn => hn.of_prefix, rfl⟩

/-- Where a term may come, reading its tokens completes the join that waits for it, or
stops at a limit that the term exceeds. -/
theorem IsTerm.steps_or_exceeds : ∀ {tokens : List Token} {tree : Tree}, IsTerm tokens tree →
    ∀ (position : Nat) (levels : List (Option Join)) (join : Option Join),
      Reading.steps ⟨position, levels, .term join⟩ tokens =
          ((Reading.completed tree.measured join).map
            fun progress => ⟨position + tokens.length, levels, progress⟩) ∨
        ∃ place fault, Exceeds levels.length tokens tree fault ∧
          Reading.steps ⟨position, levels, .term join⟩ tokens = .error (place, fault)
  | _, _, .condition hf hl, position, levels, join => by
      refine .inl ?_
      simp only [Reading.steps, Reading.step, if_neg (isFieldName_ne_open hf), if_pos hf,
        Comparator.ofSymbol?_symbol, hl, Tree.measured_leaf]
      cases Reading.completed _ join with
      | error fault => rfl
      | ok progress => rfl
  | _, _, @IsTerm.parentheses tokens tree hr, position, levels, join => by
      simp only [Reading.steps, Reading.step, if_true]
      by_cases hlt : levels.length < maxDepth
      · simp only [if_pos hlt]
        rw [Reading.steps_append]
        rcases hr.steps_or_exceeds (position + 1) (join :: levels) with
          hrule | ⟨place, fault, he, hrule⟩
        · have hclose : LogicalOp.ofKeyword? ")" = none := rfl
          refine .inl ?_
          rw [hrule]
          simp only [Except.bind, Reading.steps, Reading.step, hclose]
          cases Reading.completed tree.measured join with
          | error fault => rfl
          | ok progress =>
              have hcount : position + 1 + tokens.length + 1 =
                  position + ("(" :: (tokens ++ [")"])).length := by
                simp only [List.length_cons, List.length_append, List.length_nil]
                omega
              simp only [Except.map, if_true, hcount]
        · rw [hrule]
          exact .inr ⟨place, fault,
            he.whole (Nat.le_refl _) fun hn => NestsWithin.of_prefix hn.of_open.2, rfl⟩
      · rw [if_neg hlt]
        exact .inr ⟨_, _, .nesting fun hn => hlt hn.of_open.1, rfl⟩

end

theorem Exceeds.not_within {outer : Nat} {tokens : List Token} {tree : Tree}
    {fault : RuleFault} (h : Exceeds outer tokens tree fault) (hd : tree.depth ≤ maxDepth) :
    ¬ NestsWithin outer tokens := by
  cases h with
  | height hlt => exact absurd hd (Nat.not_le_of_lt hlt)
  | nesting hnot => exact hnot

/-- A term within the limits completes the join that waits for it. -/
theorem IsTerm.steps {tokens : List Token} {tree : Tree} (h : IsTerm tokens tree)
    (position : Nat) (levels : List (Option Join)) (join : Option Join)
    (hd : tree.depth ≤ maxDepth) (hn : NestsWithin levels.length tokens) :
    Reading.steps ⟨position, levels, .term join⟩ tokens =
      (Reading.completed tree.measured join).map
        fun progress => ⟨position + tokens.length, levels, progress⟩ := by
  rcases h.steps_or_exceeds position levels join with hsteps | ⟨_, _, he, _⟩
  · exact hsteps
  · exact absurd hn (he.not_within hd)

theorem IsTerm.ne_nil {tokens : List Token} {tree : Tree} (h : IsTerm tokens tree) :
    tokens ≠ [] := by
  cases h <;> exact List.cons_ne_nil _ _

theorem IsRule.ne_nil {tokens : List Token} {tree : Tree} (h : IsRule tokens tree) :
    tokens ≠ [] := by
  cases h with
  | term ht => exact ht.ne_nil
  | join _ _ => exact List.append_ne_nil_of_right_ne_nil _ (List.cons_ne_nil _ _)

/-- A rule within the limits is read. -/
theorem IsRule.ofTokens {tokens : List Token} {tree : Tree} (h : IsRule tokens tree)
    (hd : tree.depth ≤ maxDepth) (hn : NestsWithin 0 tokens) :
    Tree.ofTokens tokens = .ok tree := by
  have hne : tokens.isEmpty = false := List.isEmpty_eq_false_iff.2 h.ne_nil
  rcases h.steps_or_exceeds 0 [] with hsteps | ⟨_, _, he, _⟩
  · have hstart : Reading.start.steps tokens = .ok ⟨0 + tokens.length, [], .rule tree.measured⟩ :=
      hsteps
    simp only [Tree.ofTokens, hne, hstart, Reading.finish, List.isEmpty_nil, if_true,
      Bool.false_eq_true, if_false, Tree.tree_measured]
  · exact absurd hn (he.not_within hd)

/-! ## What is read is a rule -/

namespace Tree

/-- The reading behind a tree. -/
theorem steps_of_ofTokens {tokens : List Token} {tree : Tree}
    (h : ofTokens tokens = .ok tree) :
    ∃ r, Reading.start.steps tokens = .ok r ∧ r.finish = .ok tree := by
  unfold ofTokens at h
  split at h
  · cases h
  · split at h
    · cases h
    next r hr =>
      split at h
      · cases h
      next t hf =>
        cases h
        exact ⟨r, hr, hf⟩

/-- What is read is a rule, no higher than the limit. -/
theorem isRule_of_ofTokens {tokens : List Token} {tree : Tree}
    (h : ofTokens tokens = .ok tree) : IsRule tokens tree ∧ tree.depth ≤ maxDepth := by
  obtain ⟨r, hr, hf⟩ := steps_of_ofTokens h
  exact (Reading.Accounts.start.steps hr).finish hf

/-- Where the tokens of a rule are read, parentheses nest within the limit. -/
theorem nestsWithin_of_ofTokens {tokens : List Token} {tree : Tree}
    (h : ofTokens tokens = .ok tree) : NestsWithin 0 tokens := by
  obtain ⟨r, hr, -⟩ := steps_of_ofTokens h
  rintro start ⟨rest, rfl⟩
  rw [Reading.steps_append] at hr
  cases hs : Reading.start.steps start with
  | error fault => rw [hs] at hr; cases hr
  | ok middle =>
      have hm := Reading.Accounts.start.steps hs
      rw [List.nil_append] at hm
      rw [hm.openParentheses]
      have := hm.levels
      omega

/-- Reading tokens gives a tree exactly if the tokens write it as a rule, it is no higher
than the limit, and no more parentheses than the limit are open at any of the tokens. -/
theorem ofTokens_eq_ok_iff (tokens : List Token) (tree : Tree) :
    ofTokens tokens = .ok tree ↔
      IsRule tokens tree ∧ tree.depth ≤ maxDepth ∧
        ∀ start, start <+: tokens → openParentheses start ≤ maxDepth := by
  constructor
  · intro h
    obtain ⟨hr, hd⟩ := isRule_of_ofTokens h
    refine ⟨hr, hd, ?_⟩
    intro start hs
    have hn := nestsWithin_of_ofTokens h start hs
    omega
  · rintro ⟨hr, hd, hn⟩
    refine hr.ofTokens hd ?_
    intro start hs
    have := hn start hs
    omega

/-! ## Texts -/

/-- A text is a rule if its tokens are. -/
theorem parse_eq_ok_iff {text : String} {tree : Tree} :
    parse text = .ok tree ↔
      ∃ tokens, Token.scan text = .ok tokens ∧ ofTokens tokens = .ok tree := by
  rw [parse]
  cases Token.scan text with
  | error e => simp
  | ok tokens => simp

theorem depth_of_parse {text : String} {tree : Tree} (h : parse text = .ok tree) :
    tree.depth ≤ maxDepth := by
  obtain ⟨tokens, -, ht⟩ := parse_eq_ok_iff.1 h
  exact (isRule_of_ofTokens ht).2

theorem isFieldName_of_parse {text : String} {tree : Tree} (h : parse text = .ok tree) :
    ∀ field ∈ tree.fields, isFieldName field = true := by
  obtain ⟨tokens, -, ht⟩ := parse_eq_ok_iff.1 h
  exact (isRule_of_ofTokens ht).1.isFieldName

end Tree

end Rulebook
