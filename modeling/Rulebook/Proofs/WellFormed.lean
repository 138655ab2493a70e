import Rulebook.Proofs.Combination.Sequence
import Rulebook.Proofs.Process
import Rulebook.Proofs.Rule.Acceptance
import Rulebook.Proofs.Rule.Form
import Rulebook.Proofs.Rule.Literal

/-!
# Rules made from texts are well formed

A rule is well formed if it is no higher than the limit, its fields are words that name
fields, and its values can be written in rule texts (`Tree.IsWellFormed`).  The rule of a
text is well formed, since its fields and values come from tokens
(`Tree.isWellFormed_of_parse`), and joins keep rules well formed (`Tree.IsWellFormed.join`).
So the rules of all sources are (`Source.isWellFormed_of_read`), and with them all rules
that calls make (`Process.made_isWellFormed`).
-/

namespace Rulebook

/-! ## Fields and values come from tokens -/

mutual

theorem IsRule.mem_of_mem_fields : ∀ {tokens : List Token} {tree : Tree}, IsRule tokens tree →
    ∀ field ∈ tree.fields, field ∈ tokens
  | _, _, .term ht => ht.mem_of_mem_fields
  | _, _, .join hl hr => fun field hfield => by
      rcases List.mem_append.1 hfield with h | h
      · exact List.mem_append_left _ (hl.mem_of_mem_fields field h)
      · exact List.mem_append_right _ (.tail _ (hr.mem_of_mem_fields field h))

theorem IsTerm.mem_of_mem_fields : ∀ {tokens : List Token} {tree : Tree}, IsTerm tokens tree →
    ∀ field ∈ tree.fields, field ∈ tokens
  | _, _, .condition _ _ => fun field hfield => by
      rw [List.mem_singleton.1 hfield]
      exact .head _
  | _, _, .parentheses hr => fun field hfield =>
      .tail _ (List.mem_append_left _ (hr.mem_of_mem_fields field hfield))

end

mutual

/-- Each value of a rule is what one of the tokens stands for. -/
theorem IsRule.exists_ofToken : ∀ {tokens : List Token} {tree : Tree}, IsRule tokens tree →
    ∀ v ∈ tree.literals, ∃ token ∈ tokens, Literal.ofToken token = .ok v
  | _, _, .term ht => ht.exists_ofToken
  | _, _, .join hl hr => fun v hv => by
      rcases List.mem_append.1 hv with h | h
      · obtain ⟨token, htoken, hstands⟩ := hl.exists_ofToken v h
        exact ⟨token, List.mem_append_left _ htoken, hstands⟩
      · obtain ⟨token, htoken, hstands⟩ := hr.exists_ofToken v h
        exact ⟨token, List.mem_append_right _ (.tail _ htoken), hstands⟩

theorem IsTerm.exists_ofToken : ∀ {tokens : List Token} {tree : Tree}, IsTerm tokens tree →
    ∀ v ∈ tree.literals, ∃ token ∈ tokens, Literal.ofToken token = .ok v
  | _, _, .condition _ hl => fun v hv => by
      rw [List.mem_singleton.1 hv]
      exact ⟨_, .tail _ (.tail _ (.head _)), hl⟩
  | _, _, .parentheses hr => fun v hv => by
      obtain ⟨token, htoken, hstands⟩ := hr.exists_ofToken v hv
      exact ⟨token, .tail _ (List.mem_append_left _ htoken), hstands⟩

end

/-! ## The values of tokens -/

/-- A value that rule texts can hold: numbers are finite, and texts hold no quote. -/
def Value.IsExpressible : Value → Prop
  | .int _ => True
  | .float x => x.isFinite = true
  | .text s => '\'' ∉ s.toList

/-- What stands between the quotes of a token holds no quote. -/
theorem Token.HasForm.not_mem_unquoted {w inner : List Char} (h : HasForm w)
    (hinner : Literal.unquoted? w = some inner) : '\'' ∉ inner := by
  have hw := Literal.unquoted?_eq_some_iff.1 hinner
  have hquote : '\'' ∈ w := by
    rw [hw]
    exact .head _
  obtain ⟨between, hbetween, hquoted⟩ := h.eq_quoted hquote
  obtain rfl : between = inner := by simpa using hquoted.symm.trans hw
  exact hbetween

/-- A token with a quote has something between quotes. -/
theorem Token.HasForm.not_mem_of_unquoted? {w : List Char} (h : HasForm w)
    (hnone : Literal.unquoted? w = none) : '\'' ∉ w := by
  intro hquote
  obtain ⟨between, -, hquoted⟩ := h.eq_quoted hquote
  rw [Literal.unquoted?_eq_some_iff.2 hquoted] at hnone
  cases hnone

theorem Value.exists_of_ofInt? {i : Int} {v : Value} (h : Value.ofInt? i = some v) :
    ∃ j, v = .int j := by
  unfold Value.ofInt? at h
  split at h
  next =>
    cases h
    exact ⟨_, rfl⟩
  next => cases h

/-- The ways in which a token can stand for a value. -/
inductive Literal.StandsFor (token : Token) : Value → Prop where
  | quoted {inner : List Char} : unquoted? token.toList = some inner →
      StandsFor token (.text (String.ofList inner))
  | int {i : Int64} : Numeral.isDigits (Numeral.splitMinus token.toList).2 = true →
      StandsFor token (.int i)
  | float {parts : List Char × List Char} {x : Binary64} :
      decimalParts? (Numeral.splitMinus token.toList).2 = some parts → x.isFinite = true →
      StandsFor token (.float x)
  | word : unquoted? token.toList = none → StandsFor token (.text token)

theorem Literal.standsFor_of_ofToken {token : Token} {v : Value} (h : ofToken token = .ok v) :
    StandsFor token v := by
  simp only [ofToken] at h
  split at h
  next inner hinner =>
    cases h
    exact .quoted hinner
  next hnone =>
    split at h
    next => cases h
    next =>
      split at h
      next hdigits =>
        split at h
        next hi =>
          cases h
          obtain ⟨j, rfl⟩ := Value.exists_of_ofInt? hi
          exact .int hdigits
        next => cases h
      next =>
        split at h
        next hparts =>
          split at h
          next =>
            split at h
            next hfinite =>
              cases h
              exact .float hparts hfinite
            next => cases h
          next => cases h
        next =>
          cases h
          exact .word hnone

/-- A token of a text stands for a value that rule texts can hold. -/
theorem Literal.isExpressible_of_ofToken {token : Token} {v : Value}
    (hform : Token.HasForm token.toList) (h : ofToken token = .ok v) : v.IsExpressible := by
  cases standsFor_of_ofToken h with
  | quoted hinner =>
      rw [Value.IsExpressible, String.toList_ofList]
      exact hform.not_mem_unquoted hinner
  | int _ => trivial
  | float _ hfinite => exact hfinite
  | word hnone => exact hform.not_mem_of_unquoted? hnone

/-! ## Well-formed rules -/

namespace Tree

/-- A rule that can be made from texts. -/
structure IsWellFormed (tree : Tree) : Prop where
  /-- It is no higher than the limit. -/
  depth_le : tree.depth ≤ maxDepth
  /-- Its fields are names of fields. -/
  isFieldName : ∀ field ∈ tree.fields, isFieldName field = true
  /-- They are words, and tokens by themselves. -/
  isWord : ∀ field ∈ tree.fields, Token.IsWord field
  /-- Its values can be written. -/
  isExpressible : ∀ v ∈ tree.literals, v.IsExpressible

/-- The rule of a text is well formed. -/
theorem isWellFormed_of_parse {text : String} {tree : Tree} (h : parse text = .ok tree) :
    tree.IsWellFormed := by
  obtain ⟨tokens, hscan, hread⟩ := parse_eq_ok_iff.1 h
  obtain ⟨hrule, hdepth⟩ := isRule_of_ofTokens hread
  have hforms := Token.hasForm_of_scan hscan
  refine ⟨hdepth, hrule.isFieldName, ?_, ?_⟩
  · intro field hfield
    exact (hforms field (hrule.mem_of_mem_fields field hfield)).isWord
      (hrule.isFieldName field hfield)
  · intro v hv
    obtain ⟨token, htoken, hstands⟩ := hrule.exists_ofToken v hv
    exact Literal.isExpressible_of_ofToken (hforms token htoken) hstands

theorem IsWellFormed.join {op : LogicalOp} {l r t : MeasuredTree} (hl : l.tree.IsWellFormed)
    (hr : r.tree.IsWellFormed) (h : MeasuredTree.join op l r = .ok t) : t.tree.IsWellFormed := by
  obtain ⟨rfl, hheight⟩ := MeasuredTree.join_eq_ok_iff.1 h
  rw [MeasuredTree.height_eq] at hheight
  exact ⟨hheight, List.forall_mem_append.2 ⟨hl.isFieldName, hr.isFieldName⟩,
    List.forall_mem_append.2 ⟨hl.isWord, hr.isWord⟩,
    List.forall_mem_append.2 ⟨hl.isExpressible, hr.isExpressible⟩⟩

/-! ## Combinations -/

theorem IsWellFormed.reduce {op : LogicalOp} {queue : List MeasuredTree} {tree : Tree}
    (hqueue : ∀ t ∈ queue, t.tree.IsWellFormed) (h : MeasuredTree.reduce op queue = .ok tree) :
    tree.IsWellFormed := by
  induction queue using MeasuredTree.reduce.induct op with
  | case1 =>
      rw [MeasuredTree.reduce] at h
      cases h
  | case2 t =>
      rw [MeasuredTree.reduce] at h
      cases h
      exact hqueue _ (.head _)
  | case3 left right rest e hjoin =>
      rw [MeasuredTree.reduce, hjoin] at h
      cases h
  | case4 left right rest joined hjoin ih =>
      rw [MeasuredTree.reduce, hjoin] at h
      obtain ⟨hleft, hrest⟩ := List.forall_mem_cons.1 hqueue
      obtain ⟨hright, hrest⟩ := List.forall_mem_cons.1 hrest
      refine ih (List.forall_mem_append.2 ⟨hrest, ?_⟩) h
      exact List.forall_mem_singleton.2 (hleft.join hright hjoin)

theorem isWellFormed_of_combine {texts : List String} {tree : Tree}
    (h : Tree.combine texts = .ok tree) : tree.IsWellFormed := by
  unfold Tree.combine at h
  split at h
  next => cases h
  next trees hparse =>
    refine IsWellFormed.reduce (List.forall_mem_map.2 fun t ht => ?_) h
    have hmem : Except.ok t ∈ texts.map Tree.parse := by
      rw [parseAll_eq_ok_iff.1 hparse]
      exact List.mem_map_of_mem ht
    obtain ⟨text, -, htext⟩ := List.mem_map.1 hmem
    exact isWellFormed_of_parse htext

theorem IsWellFormed.conjoinOnto {texts : List String} {left : MeasuredTree} {tree : Tree}
    (hleft : left.tree.IsWellFormed) (h : left.conjoinOnto texts = .ok tree) :
    tree.IsWellFormed := by
  induction texts generalizing left with
  | nil =>
      cases h
      exact hleft
  | cons text rest ih =>
      rw [MeasuredTree.conjoinOnto] at h
      split at h
      next => cases h
      next right hparse =>
        split at h
        next => cases h
        next joined hjoin =>
          exact ih (hleft.join (r := right.measured) (isWellFormed_of_parse hparse) hjoin) h

theorem isWellFormed_of_conjoin {texts : List String} {tree : Tree}
    (h : Tree.conjoin texts = .ok tree) : tree.IsWellFormed := by
  cases texts with
  | nil => cases h
  | cons text rest =>
      rw [Tree.conjoin] at h
      split at h
      next => cases h
      next first hparse =>
        exact @IsWellFormed.conjoinOnto rest first.measured tree (isWellFormed_of_parse hparse) h

end Tree

/-- The rule of a source is well formed. -/
theorem Source.isWellFormed_of_read {source : Source} {tree : Tree}
    (h : source.read = .ok tree) : tree.IsWellFormed := by
  cases source with
  | single text => exact Tree.isWellFormed_of_parse h
  | combined texts => exact Tree.isWellFormed_of_combine h
  | conjoined texts => exact Tree.isWellFormed_of_conjoin h

/-! ## Calls -/

/-- The rule that a call has made from texts and gives. -/
def Outcome.made? : Outcome → Option Tree
  | .tree (.ok made) | .compiled (.ok (made, _)) => some made
  | _ => none

namespace Outcome

variable {result : Except Error Tree} {made : Tree}

theorem eq_ok_of_made?_tree (h : (tree result).made? = some made) : result = .ok made := by
  cases result with
  | error e => cases h
  | ok read =>
      cases h
      rfl

theorem eq_ok_of_made?_compiled
    (h : (compiled (result.map Tree.compiled)).made? = some made) : result = .ok made := by
  cases result with
  | error e => cases h
  | ok read =>
      cases h
      rfl

end Outcome

namespace Process

/-- What a call makes is the rule of some source. -/
theorem exists_read_of_made? {p : Process} (hc : p.cache.Sound) {call : Call} {tree : Tree}
    (h : (p.step call).1.made? = some tree) : ∃ source : Source, source.read = .ok tree := by
  rw [(step_plain hc call).1] at h
  cases call with
  | read source => exact ⟨source, Outcome.eq_ok_of_made?_tree h⟩
  | compile source => exact ⟨source, Outcome.eq_ok_of_made?_compiled h⟩
  | create i name text =>
      simp only [Call.plain] at h
      split at h
      next => cases h
      next =>
        have hcreate := Outcome.eq_ok_of_made?_tree h
        exact ⟨.single text, (Engine.plainCreate_eq_ok_iff.1 hcreate).1⟩
  | ask i query =>
      simp only [Call.plain] at h
      split at h
      next => cases h
      next engine _ =>
        cases query with
        | put name p =>
            simp only [Engine.answer] at h
            split at h <;> cases h
        | _ => cases h
  | _ => cases h

/-- After any calls, every rule that a call makes from texts is well formed, and so is the
rule of every text.  None of its fields is empty or an operator. -/
theorem made_isWellFormed (calls : List Call) {tree : Tree}
    (h : (∃ text, Tree.parse text = .ok tree) ∨
      ∃ call, ((start.after calls).step call).1.made? = some tree) :
    tree.IsWellFormed ∧
      ∀ field ∈ tree.fields, field ≠ "" ∧ field ≠ "AND" ∧ field ≠ "OR" := by
  have hc : (start.after calls).cache.Sound := sound_after (.of_empty rfl) calls
  have hformed : tree.IsWellFormed := by
    rcases h with ⟨text, hparse⟩ | ⟨call, hmade⟩
    · exact Tree.isWellFormed_of_parse hparse
    · obtain ⟨source, hread⟩ := exists_read_of_made? hc hmade
      exact Source.isWellFormed_of_read hread
  refine ⟨hformed, ?_⟩
  intro field hfield
  have hname := hformed.isFieldName field hfield
  refine ⟨?_, ?_, ?_⟩ <;> rintro rfl <;> exact absurd hname (by decide +kernel)

/-- Two texts joined by AND in a full cache: words of other scripts, a number with a fraction
and a text that looks like a rule. -/
theorem made_isWellFormed_two :
    let calls : List Call := [.configure true 1, .read (.single "a > 1")]
    let call : Call := .compile (.conjoined ["größe٣ < -2.5", "(_b = 'x OR 1' OR c = OR)"])
    let tree : Tree := .operator .and
      (.leaf ⟨"größe٣", .less, .float (.ofBits 0xC004000000000000)⟩)
      (.operator .or (.leaf ⟨"_b", .equal, .text "x OR 1"⟩) (.leaf ⟨"c", .equal, .text "OR"⟩))
    ((start.after calls).step call).1.made? = some tree ∧ tree.IsWellFormed ∧
      ∀ field ∈ tree.fields, field ≠ "" ∧ field ≠ "AND" ∧ field ≠ "OR" := by
  intro calls call tree
  have hmade : ((start.after calls).step call).1.made? = some tree := by decide +kernel
  exact ⟨hmade, made_isWellFormed calls (.inr ⟨call, hmade⟩)⟩

end Process

end Rulebook
