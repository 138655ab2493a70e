import Rulebook.Proofs.Rule.Acceptance

/-!
# Where reading fails

A fault points at the first token that no rule continues with (`Tree.fault_of_ofTokens`).

Three facts carry this.  Whatever a reading has accepted can be continued to a rule: the
innermost level with a condition, and each open parenthesis by closing it
(`Reading.Accounts.startsRule`).  No rule is refused but for a limit
(`IsRule.isLimit_of_refused`, from the grammar side).  And there are four ways to refuse a
token (`Reading.Refuses`), all but the first of which are limits.  The last two blame an
operator read earlier, whose operands are then those of a join one too high
(`Waits.exceeds`).
-/

namespace Rulebook

/-! ## The limits among the faults -/

/-- Whether a fault is that a limit is exceeded. -/
def RuleFault.isLimit : RuleFault → Bool
  | tooManyParentheses | tooHigh => true
  | _ => false

/-- What the wording of a fault starts with. -/
def RuleFault.initial : RuleFault → Char
  | tooManyParentheses => 'p'
  | tooHigh => 'r'
  | integerOutOfRange _ | invalidDecimal _ => 'i'
  | decimalOutOfRange _ => 'f'
  | unsupportedComparator _ | unexpected _ => 'u'
  | expectedField _ | expectedComparator | expectedValue _ | unclosed _ => 'e'

theorem RuleFault.head?_message (fault : RuleFault) :
    fault.message.toList.head? = some fault.initial := by
  unfold message
  split <;> simp [initial]

/-- No other fault is worded like a limit. -/
theorem RuleFault.message_eq_iff {fault limit : RuleFault} (h : limit.isLimit = true) :
    fault.message = limit.message ↔ fault = limit := by
  constructor
  · intro hmessage
    have hinitial : fault.initial = limit.initial := by
      have hhead := fault.head?_message
      rw [hmessage, head?_message] at hhead
      exact (Option.some.inj hhead).symm
    cases limit with
    | tooManyParentheses => cases fault <;> first | rfl | simp [initial] at hinitial
    | tooHigh => cases fault <;> first | rfl | simp [initial] at hinitial
    | _ => cases h
  · rintro rfl
    rfl

theorem RuleFault.ne_limits {fault : RuleFault} (h : fault.isLimit = false) :
    fault ≠ tooManyParentheses ∧ fault ≠ tooHigh := by
  constructor <;> rintro rfl <;> cases h

theorem Literal.isLimit_of_ofToken {token : Token} {fault : RuleFault}
    (h : Literal.ofToken token = .error fault) : fault.isLimit = false := by
  unfold Literal.ofToken at h
  simp only at h
  repeat' split at h
  all_goals cases h
  all_goals rfl

theorem Exceeds.isLimit {outer : Nat} {tokens : List Token} {tree : Tree} {fault : RuleFault}
    (h : Exceeds outer tokens tree fault) : fault.isLimit = true := by
  cases h <;> rfl

/-! ## Continuing to a rule -/

/-- The tokens can be continued to a rule. -/
def StartsRule (tokens : List Token) : Prop := ∃ rest tree, IsRule (tokens ++ rest) tree

theorem StartsRule.of_append {first second : List Token} (h : StartsRule (first ++ second)) :
    StartsRule first := by
  obtain ⟨rest, tree, hrule⟩ := h
  exact ⟨second ++ rest, tree, by rwa [← List.append_assoc]⟩

/-- Behind a field and a comparator, a value ends a condition. -/
theorem isTerm_condition {field : Token} (hf : isFieldName field = true) (c : Comparator) :
    IsTerm [field, c.symbol, "1"] (.leaf ⟨field, c, (Value.int 1)⟩) :=
  .condition hf rfl

/-- Any term ends a rule that has been read up to there. -/
theorem Waits.isRule {offset : Nat} {join : Option Join} {before term : List Token}
    {tree : Tree} (hw : Waits offset join before) (ht : IsTerm term tree) :
    ∃ whole, IsRule (before ++ term) whole := by
  cases hw with
  | nothing => exact ⟨tree, .term ht⟩
  | @join j left hl _ _ =>
      refine ⟨.operator j.op j.left.tree tree, ?_⟩
      rw [List.append_assoc]
      exact .join hl ht

theorem Stands.startsRule {offset : Nat} {progress : Progress} {tokens : List Token}
    (h : Stands offset progress tokens) : StartsRule tokens := by
  have hname : isFieldName "a" = true := by decide +kernel
  cases h with
  | term hw => exact ⟨_, hw.isRule (isTerm_condition hname .greater)⟩
  | comparator hw hf =>
      obtain ⟨tree, hrule⟩ := hw.isRule (isTerm_condition hf .greater)
      exact ⟨[Comparator.greater.symbol, "1"], tree, by simpa using hrule⟩
  | @value _ _ _ c hw hf =>
      obtain ⟨tree, hrule⟩ := hw.isRule (isTerm_condition hf c)
      exact ⟨["1"], tree, by simpa using hrule⟩
  | rule hrule _ => exact ⟨[], _, by rwa [List.append_nil]⟩

/-- Behind a rule inside them, the open parentheses can be closed one by one. -/
theorem Opens.startsRule {levels : List (Option Join)} {outer : List Token}
    (h : Opens levels outer) {inner : List Token} {tree : Tree} (hrule : IsRule inner tree) :
    StartsRule (outer ++ inner) := by
  induction h generalizing inner tree with
  | nothing => exact ⟨[], tree, by rwa [List.append_nil]⟩
  | parenthesis _ hw ih =>
      obtain ⟨whole, hwhole⟩ := hw.isRule (.parentheses hrule)
      obtain ⟨rest, result, hresult⟩ := ih hwhole
      exact ⟨")" :: rest, result, by simpa using hresult⟩

/-- What a reading has taken can be continued to a rule. -/
theorem Reading.Accounts.startsRule {r : Reading} {tokens : List Token}
    (h : r.Accounts tokens) : StartsRule tokens := by
  obtain ⟨outer, inner, rfl, ho, hs⟩ := h.split
  obtain ⟨rest, tree, hrule⟩ := hs.startsRule
  have hall := ho.startsRule hrule
  rw [← List.append_assoc] at hall
  exact hall.of_append

/-! ## Refused tokens -/

/-- The ways a reading refuses a token. -/
inductive Reading.Refuses : Reading → Token → Fault → Prop where
  | unexpected {r : Reading} {token : Token} {fault : RuleFault} :
      fault.isLimit = false → Refuses r token (r.position, fault)
  | openParenthesis {position : Nat} {levels : List (Option Join)} {join : Option Join} :
      ¬ levels.length < maxDepth →
      Refuses ⟨position, levels, .term join⟩ "(" (position, .tooManyParentheses)
  | value {position : Nat} {levels : List (Option Join)} {join : Option Join}
      {field token : Token} {c : Comparator} {literal : Value} {fault : Fault} :
      Literal.ofToken token = .ok literal →
      Reading.completed (.leaf ⟨field, c, literal⟩) join = .error fault →
      Refuses ⟨position, levels, .value join field c⟩ token fault
  | closeParenthesis {position : Nat} {levels : List (Option Join)} {join : Option Join}
      {tree : MeasuredTree} {fault : Fault} : Reading.completed tree join = .error fault →
      Refuses ⟨position, join :: levels, .rule tree⟩ ")" fault

theorem eq_error_of_map_eq_error {ε α β : Type} {f : α → β} {result : Except ε α} {e : ε}
    (h : result.map f = .error e) : result = .error e := by
  cases result with
  | error e' => exact congrArg _ (Except.error.inj h)
  | ok a => cases h

theorem Reading.refuses_of_step {r : Reading} {token : Token} {fault : Fault}
    (h : r.step token = .error fault) : r.Refuses token fault := by
  obtain ⟨position, levels, progress⟩ := r
  cases progress with
  | term join =>
      simp only [Reading.step] at h
      split at h
      next hopen =>
        split at h
        next => cases h
        next hlt =>
          cases h
          subst hopen
          exact .openParenthesis hlt
      next =>
        split at h
        next => cases h
        next =>
          cases h
          exact .unexpected rfl
  | comparator join field =>
      simp only [Reading.step] at h
      split at h
      next => cases h
      next =>
        cases h
        exact .unexpected rfl
  | value join field c =>
      simp only [Reading.step] at h
      split at h
      next literal hl => exact .value hl (eq_error_of_map_eq_error h)
      next hl =>
        cases h
        exact .unexpected (Literal.isLimit_of_ofToken hl)
  | rule tree =>
      simp only [Reading.step] at h
      split at h
      next => cases h
      next =>
        cases levels with
        | nil =>
            cases h
            exact .unexpected rfl
        | cons join levels =>
            simp only at h
            split at h
            next hclose =>
              subst hclose
              exact .closeParenthesis (eq_error_of_map_eq_error h)
            next =>
              cases h
              exact .unexpected rfl

/-- Where reading stops, the tokens before were read and the next one is refused. -/
theorem Reading.exists_of_steps_eq_error {r : Reading} {tokens : List Token} {fault : Fault}
    (h : r.steps tokens = .error fault) :
    ∃ before token after r', tokens = before ++ token :: after ∧ r.steps before = .ok r' ∧
      r'.step token = .error fault := by
  induction tokens generalizing r with
  | nil => cases h
  | cons token rest ih =>
      simp only [Reading.steps] at h
      cases hs : r.step token with
      | error other =>
          rw [hs] at h
          cases h
          exact ⟨[], token, rest, r, rfl, rfl, hs⟩
      | ok next =>
          rw [hs] at h
          obtain ⟨before, refused, after, r', rfl, hbefore, hrefused⟩ := ih h
          refine ⟨token :: before, refused, after, r', rfl, ?_, hrefused⟩
          simp only [Reading.steps, hs, hbefore]

/-- A token of a rule is refused only because of a limit. -/
theorem IsRule.isLimit_of_refused {before after : List Token} {token : Token} {tree : Tree}
    {r : Reading} {place : Nat} {fault : RuleFault}
    (h : IsRule (before ++ token :: after) tree) (hr : Reading.start.steps before = .ok r)
    (hs : r.step token = .error (place, fault)) : fault.isLimit = true := by
  have hsteps : Reading.steps ⟨0, [], .term none⟩ (before ++ token :: after) =
      .error (place, fault) := by
    have hstart : Reading.steps ⟨0, [], .term none⟩ before = .ok r := hr
    rw [Reading.steps_append, hstart]
    simp only [Except.bind, Reading.steps, hs]
  rcases h.steps_or_exceeds 0 [] with hok | ⟨place', fault', he, herror⟩
  · rw [hsteps] at hok
    cases hok
  · rw [hsteps] at herror
    cases herror
    exact he.isLimit

/-- What a reading that may not end has read is no rule, and the end is at fault. -/
theorem Reading.of_finish_eq_error {r : Reading} {tokens : List Token} {place : Nat}
    {fault : RuleFault} (hr : Reading.start.steps tokens = .ok r)
    (hf : r.finish = .error (place, fault)) :
    place = r.position ∧ fault.isLimit = false ∧ ∀ tree, ¬ IsRule tokens tree := by
  have hplace : place = r.position ∧ fault.isLimit = false := by
    unfold Reading.finish at hf
    grind [RuleFault.isLimit]
  refine ⟨hplace.1, hplace.2, ?_⟩
  intro tree hrule
  have hstart : Reading.steps ⟨0, [], .term none⟩ tokens = .ok r := hr
  rcases hrule.steps_or_exceeds 0 [] with hok | ⟨_, _, _, herror⟩
  · rw [hstart] at hok
    cases hok
    cases hf
  · rw [hstart] at herror
    cases herror

/-! ## Joins that are too high -/

/-- The operator at this position joins `l` and `r`: its left operand is all that follows
the innermost parenthesis open there, or the start, and its right operand is one term. -/
inductive JoinsAt : List Token → Nat → LogicalOp → Tree → Tree → Prop where
  | intro {outer left right rest : List Token} {op : LogicalOp} {l r : Tree} :
      (outer = [] ∨ ∃ before, outer = before ++ ["("]) → IsRule left l → IsTerm right r →
      JoinsAt (outer ++ (left ++ op.keyword :: (right ++ rest))) (outer.length + left.length)
        op l r

theorem JoinsAt.getElem?_eq {tokens : List Token} {position : Nat} {op : LogicalOp}
    {l r : Tree} (h : JoinsAt tokens position op l r) :
    tokens[position]? = some op.keyword := by
  cases h with
  | intro _ _ _ => simp

theorem Opens.ends {levels : List (Option Join)} {outer : List Token}
    (h : Opens levels outer) : outer = [] ∨ ∃ before, outer = before ++ ["("] := by
  cases h with
  | nothing => exact .inl rfl
  | parenthesis _ _ => exact .inr ⟨_, rfl⟩

/-- A term that does not complete the join that waits for it makes it one too high. -/
theorem Waits.exceeds {levels : List (Option Join)} {join : Option Join}
    {outer before term : List Token} {tree : MeasuredTree} {place : Nat} {fault : RuleFault}
    (hw : Waits outer.length join before) (ho : Opens levels outer) (ht : IsTerm term tree.tree)
    (hd : tree.height ≤ maxDepth) (h : Reading.completed tree join = .error (place, fault))
    (rest : List Token) :
    fault = .tooHigh ∧ ∃ op l r, JoinsAt (outer ++ before ++ (term ++ rest)) place op l r ∧
      (Tree.operator op l r).depth = maxDepth + 1 := by
  cases hw with
  | nothing => cases h
  | @join j left hl hdl hposition =>
      simp only [Reading.completed] at h
      split at h
      next joined hj =>
        cases h
      next hj =>
        cases h
        have htoo := MeasuredTree.join?_eq_none_iff.1 hj
        have hmax := MeasuredTree.height_operator j.op j.left tree
        have hdepth : (MeasuredTree.operator j.op j.left tree).height =
            (Tree.operator j.op j.left.tree tree.tree).depth := MeasuredTree.height_eq _
        refine ⟨rfl, j.op, j.left.tree, tree.tree, ?_, by omega⟩
        have hjoins := @JoinsAt.intro _ _ _ rest j.op _ _ ho.ends hl ht
        rw [← hposition] at hjoins
        simpa using hjoins

/-! ## The faults of token lists -/

/-- What a fault at a position says of the tokens. -/
inductive Explains (tokens : List Token) : Nat → RuleFault → Prop where
  | token {before after : List Token} {refused : Token} {fault : RuleFault} :
      fault.isLimit = false → tokens = before ++ refused :: after → StartsRule before →
      ¬ StartsRule (before ++ [refused]) → Explains tokens before.length fault
  | ending {fault : RuleFault} :
      fault.isLimit = false → StartsRule tokens → (∀ tree, ¬ IsRule tokens tree) →
      Explains tokens tokens.length fault
  | nesting {before after : List Token} :
      tokens = before ++ "(" :: after → openParentheses before = maxDepth →
      Explains tokens before.length .tooManyParentheses
  | height {position : Nat} {op : LogicalOp} {l r : Tree} :
      JoinsAt tokens position op l r → (Tree.operator op l r).depth = maxDepth + 1 →
      Explains tokens position .tooHigh

/-- A token refused after others were read. -/
theorem Reading.explains_of_refused {r : Reading} {before : List Token} {token : Token}
    {place : Nat} {fault : RuleFault} (hr : Reading.start.steps before = .ok r)
    (hs : r.step token = .error (place, fault)) (after : List Token) :
    Explains (before ++ token :: after) place fault := by
  have h : r.Accounts before := Accounts.start.steps hr
  cases Reading.refuses_of_step hs with
  | unexpected hlimit =>
      rw [h.position]
      refine .token hlimit rfl h.startsRule ?_
      rintro ⟨rest, tree, hrule⟩
      rw [List.append_assoc] at hrule
      rw [hrule.isLimit_of_refused hr hs] at hlimit
      cases hlimit
  | openParenthesis hlt =>
      rw [show place = before.length from h.position]
      refine .nesting rfl ?_
      have hopen := h.openParentheses
      have hmost := h.levels
      simp only at hopen hmost
      omega
  | value hl hc =>
      obtain ⟨outer, inner, rfl, ho, hs⟩ := h.split
      cases hs with
      | value hw hf =>
          obtain ⟨rfl, op, l, r, hjoins, hdepth⟩ :=
            hw.exceeds ho (.condition hf hl) (MeasuredTree.height_leaf_le _) hc after
          refine .height ?_ hdepth
          simpa using hjoins
  | closeParenthesis hc =>
      obtain ⟨outer, inner, rfl, ho, hs⟩ := h.split
      cases hs with
      | rule hrule hd =>
          cases ho with
          | parenthesis ho hw =>
              obtain ⟨rfl, op, l, r, hjoins, hdepth⟩ :=
                hw.exceeds ho (.parentheses hrule) hd hc after
              refine .height ?_ hdepth
              simpa using hjoins

/-- The end of the tokens, where more are needed. -/
theorem Reading.explains_of_finish {r : Reading} {tokens : List Token} {place : Nat}
    {fault : RuleFault} (hr : Reading.start.steps tokens = .ok r)
    (hf : r.finish = .error (place, fault)) : Explains tokens place fault := by
  have h : r.Accounts tokens := Accounts.start.steps hr
  obtain ⟨rfl, hlimit, hnot⟩ := Reading.of_finish_eq_error hr hf
  rw [h.position]
  exact .ending hlimit h.startsRule hnot

namespace Tree

/-- Every syntax fault explains itself. -/
theorem explains_of_ofTokens {tokens : List Token} {position : Nat} {fault : RuleFault}
    (h : ofTokens tokens = .error (.syntaxFault position fault)) :
    Explains tokens position fault := by
  unfold ofTokens at h
  split at h
  · cases h
  · split at h
    next place _ hsteps =>
      cases h
      obtain ⟨before, token, after, r, rfl, hr, hs⟩ := Reading.exists_of_steps_eq_error hsteps
      exact Reading.explains_of_refused hr hs after
    next r hr =>
      split at h
      next hf =>
        cases h
        exact Reading.explains_of_finish hr hf
      next => cases h

/-- A syntax fault points at the first token that cannot be continued: what comes before it
can be continued to a rule, but not together with it, or there is no more token and the
tokens are no rule.  The two limits, which are told from all other faults by their wording,
are apart: the one on parentheses is blamed on an opening parenthesis where as many as allowed
are open, the one on the height on an operator whose operands would join to a tree just one
level too high. -/
theorem fault_of_ofTokens {tokens : List Token} {position : Nat} {fault : RuleFault}
    (h : ofTokens tokens = .error (.syntaxFault position fault)) :
    (fault.message ≠ RuleFault.tooManyParentheses.message →
      fault.message ≠ RuleFault.tooHigh.message →
        position ≤ tokens.length ∧
        StartsRule (tokens.take position) ∧
        (position < tokens.length → ¬ StartsRule (tokens.take (position + 1))) ∧
        (position = tokens.length → ∀ tree, ¬ IsRule tokens tree)) ∧
    (fault.message = RuleFault.tooManyParentheses.message →
      tokens[position]? = some "(" ∧
        openParentheses (tokens.take position) = maxDepth) ∧
    (fault.message = RuleFault.tooHigh.message →
      ∃ op l r, tokens[position]? = some op.keyword ∧ JoinsAt tokens position op l r ∧
        (operator op l r).depth = maxDepth + 1) := by
  have hnesting : fault.message = RuleFault.tooManyParentheses.message ↔
      fault = .tooManyParentheses :=
    RuleFault.message_eq_iff rfl
  have hheight : fault.message = RuleFault.tooHigh.message ↔ fault = .tooHigh :=
    RuleFault.message_eq_iff rfl
  rw [Ne, Ne, hnesting, hheight]
  cases explains_of_ofTokens h with
  | @token before after refused _ hlimit htokens hstart hnot =>
      subst htokens
      obtain ⟨hmany, hhigh⟩ := RuleFault.ne_limits hlimit
      refine ⟨fun _ _ => ?_, fun heq => absurd heq hmany, fun heq => absurd heq hhigh⟩
      refine ⟨by simp, by simpa using hstart, fun _ => ?_, fun hend => ?_⟩
      · rwa [List.take_length_add_append, List.take_succ_cons, List.take_zero]
      · simp at hend
  | ending hlimit hstart hnot =>
      obtain ⟨hmany, hhigh⟩ := RuleFault.ne_limits hlimit
      refine ⟨fun _ _ => ?_, fun heq => absurd heq hmany, fun heq => absurd heq hhigh⟩
      refine ⟨Nat.le_refl _, ?_, fun hlt => absurd hlt (Nat.lt_irrefl _), fun _ => hnot⟩
      rwa [List.take_length]
  | @nesting before after htokens hopen =>
      subst htokens
      refine ⟨fun hne => absurd rfl hne, fun _ => ⟨by simp, by simpa using hopen⟩, ?_⟩
      intro hhigh
      cases hhigh
  | height hjoins hdepth =>
      refine ⟨fun _ hne => absurd rfl hne, ?_,
        fun _ => ⟨_, _, _, hjoins.getElem?_eq, hjoins, hdepth⟩⟩
      intro hmany
      cases hmany

/-- A missing field, a parenthesis too many and a join too high. -/
theorem fault_of_ofTokens_three :
    let missing := ["(", "a", ">", "1", "AND", ")"]
    let nested := List.replicate 101 "("
    let chain := ["a", ">", "1"] ++ (List.replicate 100 ["AND", "a", ">", "1"]).flatten
    (ofTokens missing = .error (.syntaxFault 5 (.expectedField (some ")"))) ∧
      StartsRule ["(", "a", ">", "1", "AND"] ∧ ¬ StartsRule missing) ∧
    (ofTokens nested = .error (.syntaxFault 100 .tooManyParentheses) ∧
      openParentheses (List.replicate 100 "(") = 100) ∧
    (ofTokens chain = .error (.syntaxFault 399 .tooHigh) ∧
      ∃ op l r, JoinsAt chain 399 op l r ∧ (operator op l r).depth = 101) := by
  intro missing nested chain
  have hmissing : ofTokens missing = .error (.syntaxFault 5 (.expectedField (some ")"))) := rfl
  have hnested : ofTokens nested = .error (.syntaxFault 100 .tooManyParentheses) := rfl
  have hchain : ofTokens chain = .error (.syntaxFault 399 .tooHigh) := by
    set_option maxRecDepth 5000 in rfl
  obtain ⟨hunexpected, -, -⟩ := fault_of_ofTokens hmissing
  obtain ⟨-, hmany, -⟩ := fault_of_ofTokens hnested
  obtain ⟨-, -, hhigh⟩ := fault_of_ofTokens hchain
  obtain ⟨-, hstart, hnot, -⟩ := hunexpected
    (fun h => nomatch (RuleFault.message_eq_iff rfl).1 h)
    (fun h => nomatch (RuleFault.message_eq_iff rfl).1 h)
  obtain ⟨op, l, r, -, hjoins, hdepth⟩ := hhigh rfl
  exact ⟨⟨hmissing, hstart, hnot (by decide)⟩, ⟨hnested, (hmany rfl).2⟩,
    ⟨hchain, op, l, r, hjoins, hdepth⟩⟩

end Tree

end Rulebook
