import Rulebook.Proofs.Rule.Grammar

/-!
# What a reading has read

A reading accounts for the tokens that it has taken (`Reading.Accounts`): for each open
parenthesis there are the tokens of the join that it stands in, and at the innermost level
those of a part of a rule.  There are six ways to take a token (`Reading.Takes`), each of
which keeps the account (`Reading.Accounts.step`), so all tokens of a list do
(`Reading.Accounts.steps`), and a reading that may end has read a rule
(`Reading.Accounts.finish`).
-/

namespace Rulebook

/-! ## The account -/

/-- The tokens of a left side and its operator, if there is one, `offset` tokens into the
rule. -/
inductive Waits (offset : Nat) : Option Join → List Token → Prop where
  | nothing : Waits offset none []
  | join {j : Join} {left : List Token} :
      IsRule left j.left.tree → j.left.height ≤ maxDepth → j.position = offset + left.length →
      Waits offset (some j) (left ++ [j.op.keyword])

/-- The tokens up to the innermost open parenthesis, with it. -/
inductive Opens : List (Option Join) → List Token → Prop where
  | nothing : Opens [] []
  | parenthesis {join : Option Join} {levels : List (Option Join)}
      {outer inner : List Token} :
      Opens levels outer → Waits outer.length join inner →
      Opens (join :: levels) (outer ++ inner ++ ["("])

/-- The tokens read at the innermost level, which starts `offset` tokens into the rule. -/
inductive Stands (offset : Nat) : Progress → List Token → Prop where
  | term {join : Option Join} {before : List Token} :
      Waits offset join before → Stands offset (.term join) before
  | comparator {join : Option Join} {before : List Token} {field : Token} :
      Waits offset join before → isFieldName field = true →
      Stands offset (.comparator join field) (before ++ [field])
  | value {join : Option Join} {before : List Token} {field : Token}
      {comparator : Comparator} :
      Waits offset join before → isFieldName field = true →
      Stands offset (.value join field comparator) (before ++ [field, comparator.symbol])
  | rule {tree : MeasuredTree} {tokens : List Token} :
      IsRule tokens tree.tree → tree.height ≤ maxDepth → Stands offset (.rule tree) tokens

/-- The tokens that a reading has taken. -/
structure Reading.Accounts (r : Reading) (tokens : List Token) : Prop where
  /-- The tokens fall into those up to the innermost parenthesis and those after it. -/
  split : ∃ outer inner,
    tokens = outer ++ inner ∧ Opens r.levels outer ∧ Stands outer.length r.progress inner
  /-- All of them are counted. -/
  position : r.position = tokens.length
  /-- The limit on open parentheses is kept. -/
  levels : r.levels.length ≤ maxDepth

/-! ## Open parentheses -/

theorem Waits.openParentheses {offset : Nat} {join : Option Join} {tokens : List Token}
    (h : Waits offset join tokens) : openParentheses tokens = 0 := by
  cases h with
  | nothing => rfl
  | join hr _ _ =>
      rw [openParentheses_append, hr.openParentheses, openParentheses_keyword,
        openParentheses_nil, Int.add_zero]

theorem Opens.openParentheses {levels : List (Option Join)} {tokens : List Token}
    (h : Opens levels tokens) : openParentheses tokens = levels.length := by
  induction h with
  | nothing => rfl
  | parenthesis _ hw ih =>
      rw [openParentheses_append, openParentheses_append, ih, hw.openParentheses,
        openParentheses_open, openParentheses_nil, List.length_cons]
      omega

theorem Stands.openParentheses {offset : Nat} {progress : Progress} {tokens : List Token}
    (h : Stands offset progress tokens) : openParentheses tokens = 0 := by
  cases h with
  | term hw => exact hw.openParentheses
  | comparator hw hf =>
      rw [openParentheses_append, hw.openParentheses, openParentheses_field hf,
        openParentheses_nil, Int.add_zero]
  | value hw hf =>
      rw [openParentheses_append, hw.openParentheses, openParentheses_field hf,
        openParentheses_symbol, openParentheses_nil, Int.add_zero]
  | rule hr _ => exact hr.openParentheses

/-- A reading has one level for each open parenthesis. -/
theorem Reading.Accounts.openParentheses {r : Reading} {tokens : List Token}
    (h : r.Accounts tokens) : openParentheses tokens = r.levels.length := by
  obtain ⟨outer, inner, rfl, ho, hs⟩ := h.split
  rw [openParentheses_append, ho.openParentheses, hs.openParentheses, Int.add_zero]

/-! ## One token -/

theorem Reading.Accounts.start : Reading.start.Accounts [] where
  split := ⟨[], [], rfl, .nothing, .term .nothing⟩
  position := rfl
  levels := Nat.zero_le _

/-- A term completes the join that waits for it. -/
theorem Waits.completed {offset : Nat} {join : Option Join} {before term : List Token}
    {tree : MeasuredTree} {progress : Progress} (hw : Waits offset join before)
    (ht : IsTerm term tree.tree) (hd : tree.height ≤ maxDepth)
    (h : Reading.completed tree join = .ok progress) :
    Stands offset progress (before ++ term) := by
  cases hw with
  | nothing =>
      cases h
      exact .rule (.term ht) hd
  | @join j left hl _ _ =>
      simp only [Reading.completed] at h
      cases hj : MeasuredTree.join? j.op j.left tree with
      | none => rw [hj] at h; cases h
      | some joined =>
          rw [hj] at h
          cases h
          obtain ⟨rfl, hjd⟩ := MeasuredTree.join?_eq_some_iff.1 hj
          rw [List.append_assoc]
          exact .rule (.join hl ht) hjd

/-- A leaf is no higher than the limit. -/
theorem MeasuredTree.height_leaf_le (c : Condition) : (leaf c).height ≤ maxDepth :=
  Nat.le_of_ble_eq_true rfl

theorem exists_of_map_eq_ok {ε α β : Type} {f : α → β} {result : Except ε α} {b : β}
    (h : result.map f = .ok b) : ∃ a, result = .ok a ∧ f a = b := by
  cases result with
  | error e => cases h
  | ok a => exact ⟨a, rfl, Except.ok.inj h⟩

/-- The tokens that a reading can take, and what they lead to. -/
inductive Reading.Takes : Reading → Token → Reading → Prop where
  | openParenthesis {position : Nat} {levels : List (Option Join)} {join : Option Join} :
      levels.length < maxDepth →
      Takes ⟨position, levels, .term join⟩ "(" ⟨position + 1, join :: levels, .term none⟩
  | field {position : Nat} {levels : List (Option Join)} {join : Option Join}
      {token : Token} : isFieldName token = true →
      Takes ⟨position, levels, .term join⟩ token ⟨position + 1, levels, .comparator join token⟩
  | comparator {position : Nat} {levels : List (Option Join)} {join : Option Join}
      {field : Token} (c : Comparator) :
      Takes ⟨position, levels, .comparator join field⟩ c.symbol
        ⟨position + 1, levels, .value join field c⟩
  | value {position : Nat} {levels : List (Option Join)} {join : Option Join}
      {field token : Token} {c : Comparator} {literal : Value} {progress : Progress} :
      Literal.ofToken token = .ok literal →
      Reading.completed (.leaf ⟨field, c, literal⟩) join = .ok progress →
      Takes ⟨position, levels, .value join field c⟩ token ⟨position + 1, levels, progress⟩
  | operator {position : Nat} {levels : List (Option Join)} {tree : MeasuredTree}
      (op : LogicalOp) :
      Takes ⟨position, levels, .rule tree⟩ op.keyword
        ⟨position + 1, levels, .term (some ⟨tree, op, position⟩)⟩
  | closeParenthesis {position : Nat} {levels : List (Option Join)} {join : Option Join}
      {tree : MeasuredTree} {progress : Progress} : Reading.completed tree join = .ok progress →
      Takes ⟨position, join :: levels, .rule tree⟩ ")" ⟨position + 1, levels, progress⟩

theorem Reading.takes_of_step {r r' : Reading} {token : Token} (h : r.step token = .ok r') :
    r.Takes token r' := by
  obtain ⟨position, levels, progress⟩ := r
  cases progress with
  | term join =>
      simp only [Reading.step] at h
      split at h
      next hopen =>
        split at h
        next hlt =>
          cases h
          subst hopen
          exact .openParenthesis hlt
        next => cases h
      next =>
        split at h
        next hf =>
          cases h
          exact .field hf
        next => cases h
  | comparator join field =>
      simp only [Reading.step] at h
      split at h
      next c hc =>
        cases h
        rw [Comparator.ofSymbol?_eq_some_iff.1 hc]
        exact .comparator c
      next => cases h
  | value join field c =>
      simp only [Reading.step] at h
      split at h
      next literal hl =>
        obtain ⟨progress, hc, rfl⟩ := exists_of_map_eq_ok h
        exact .value hl hc
      next => cases h
  | rule tree =>
      simp only [Reading.step] at h
      split at h
      next op hop =>
        cases h
        rw [LogicalOp.ofKeyword?_eq_some_iff.1 hop]
        exact .operator op
      next =>
        cases levels with
        | nil => cases h
        | cons join levels =>
            simp only at h
            split at h
            next hclose =>
              subst hclose
              obtain ⟨progress, hc, rfl⟩ := exists_of_map_eq_ok h
              exact .closeParenthesis hc
            next => cases h

/-- One token keeps the account. -/
theorem Reading.Accounts.step {r r' : Reading} {tokens : List Token} {token : Token}
    (h : r.Accounts tokens) (hr : r.step token = .ok r') :
    r'.Accounts (tokens ++ [token]) := by
  obtain ⟨⟨outer, inner, rfl, ho, hs⟩, hposition, hlevels⟩ := h
  have hcount : r.position + 1 = (outer ++ inner ++ [token]).length := by
    simp only [hposition, List.length_append, List.length_singleton]
  cases Reading.takes_of_step hr with
  | openParenthesis hlt =>
      cases hs with
      | term hw =>
          exact ⟨⟨_, [], (List.append_nil _).symm, .parenthesis ho hw, .term .nothing⟩,
            hcount, hlt⟩
  | field hf =>
      cases hs with
      | term hw =>
          exact ⟨⟨outer, _, List.append_assoc _ _ _, ho, .comparator hw hf⟩, hcount, hlevels⟩
  | comparator c =>
      cases hs with
      | comparator hw hf =>
          refine ⟨⟨outer, _, ?_, ho, .value hw hf⟩, hcount, hlevels⟩
          simp only [List.append_assoc, List.cons_append, List.nil_append]
  | value hl hc =>
      cases hs with
      | value hw hf =>
          have hterm := hw.completed (.condition hf hl) (MeasuredTree.height_leaf_le _) hc
          refine ⟨⟨outer, _, ?_, ho, hterm⟩, hcount, hlevels⟩
          simp only [List.append_assoc, List.cons_append, List.nil_append]
  | @operator position _ tree op =>
      cases hs with
      | rule hrule hd =>
          have hplace : position = outer.length + inner.length := by
            rw [← List.length_append]
            exact hposition
          exact ⟨⟨outer, _, List.append_assoc _ _ _, ho,
            .term (.join (j := ⟨tree, op, position⟩) hrule hd hplace)⟩, hcount, hlevels⟩
  | closeParenthesis hc =>
      cases hs with
      | rule hrule hd =>
          cases ho with
          | parenthesis ho hw =>
              have hterm := hw.completed (.parentheses hrule) hd hc
              refine ⟨⟨_, _, ?_, ho, hterm⟩, hcount, Nat.le_of_succ_le hlevels⟩
              simp only [List.append_assoc, List.cons_append, List.nil_append]

/-! ## All tokens -/

namespace Reading

theorem steps_append (r : Reading) (first second : List Token) :
    r.steps (first ++ second) = (r.steps first).bind (·.steps second) := by
  induction first generalizing r with
  | nil => rfl
  | cons token rest ih =>
      simp only [List.cons_append, steps]
      cases r.step token with
      | error fault => rfl
      | ok r' => exact ih r'

/-- The tokens of a list keep the account. -/
theorem Accounts.steps {r r' : Reading} {before tokens : List Token}
    (h : r.Accounts before) (hr : r.steps tokens = .ok r') :
    r'.Accounts (before ++ tokens) := by
  induction tokens generalizing r before with
  | nil =>
      cases hr
      rwa [List.append_nil]
  | cons token rest ih =>
      simp only [Reading.steps] at hr
      cases hs : r.step token with
      | error fault => rw [hs] at hr; cases hr
      | ok next =>
          rw [hs] at hr
          have hnext := ih (h.step hs) hr
          rwa [List.append_assoc] at hnext

/-- A reading that may end has read a rule. -/
theorem Accounts.finish {r : Reading} {tokens : List Token} {tree : Tree}
    (h : r.Accounts tokens) (hr : r.finish = .ok tree) :
    IsRule tokens tree ∧ tree.depth ≤ maxDepth := by
  obtain ⟨outer, inner, rfl, ho, hs⟩ := h.split
  obtain ⟨position, levels, progress⟩ := r
  cases hs with
  | term hw => cases hr
  | comparator hw hf => cases hr
  | value hw hf => cases hr
  | rule hrule hd =>
      cases ho with
      | nothing =>
          cases hr
          rw [MeasuredTree.height_eq] at hd
          exact ⟨hrule, hd⟩
      | parenthesis ho hw => cases hr

end Reading

end Rulebook
