import Rulebook.Proofs.Process
import Rulebook.Proofs.Rule.Acceptance
import Rulebook.Proofs.Rule.Token

/-!
# Conjunctions as one text

Rules can be joined by AND in two ways: each is read by itself and then joined to those
before it, or their texts are put in parentheses, joined by the keyword, and read as one
rule (`conjunction`).

The tokens of the one text are those of the parts (`Part.cuts_conjunction`).  Reading them
makes a join at the end of each part, as joining the rules does, and fails where that fails
(`Part.mirrors_conjoinOnto`).  So both ways give the same rule
(`Process.conjoin_eq_ok_iff_parse`).
-/

namespace Rulebook

/-- A text in parentheses. -/
def parenthesized (text : String) : String := "(" ++ text ++ ")"

/-- The text that joins texts, each in parentheses, by AND. -/
def conjunction (texts : List String) : String :=
  String.intercalate " AND " (texts.map parenthesized)

/-- A rule text that can stand in parentheses as a part of another. -/
structure Part where
  /-- The text. -/
  text : String
  /-- Its tokens. -/
  tokens : List Token
  /-- Its rule. -/
  tree : Tree
  /-- The text has these tokens. -/
  scan : Token.scan text = .ok tokens
  /-- The text is this rule. -/
  parse : Tree.parse text = .ok tree
  /-- One more pair of parentheses is within the limit. -/
  nestsWithin : NestsWithin 1 tokens

namespace Part

/-- The tokens of a part with the parentheses around it. -/
def enclosed (p : Part) : List Token := "(" :: (p.tokens ++ [")"])

/-- The tokens of parts that each follow another one. -/
def following (parts : List Part) : List Token := parts.flatMap ("AND" :: ·.enclosed)

theorem isRule (p : Part) : IsRule p.tokens p.tree := by
  obtain ⟨tokens, hscan, hread⟩ := Tree.parse_eq_ok_iff.1 p.parse
  obtain rfl : tokens = p.tokens := Except.ok.inj (hscan.symm.trans p.scan)
  exact (Tree.isRule_of_ofTokens hread).1

theorem nestsWithin_enclosed (p : Part) : NestsWithin 0 p.enclosed :=
  p.nestsWithin.parentheses p.isRule.openParentheses

/-! ## The tokens of a conjunction -/

theorem cuts_parenthesized (p : Part) :
    Token.lexicon.Cuts (parenthesized p.text).toList (p.enclosed.map String.toList) := by
  have hcuts := Token.cuts_parentheses (Token.scan_eq_ok_iff.1 p.scan)
  simpa [parenthesized, enclosed] using hcuts

theorem cuts_conjunction (p : Part) (rest : List Part) :
    Token.lexicon.Cuts (conjunction ((p :: rest).map text)).toList
      ((p.enclosed ++ following rest).map String.toList) := by
  induction rest generalizing p with
  | nil => simpa [conjunction, following] using p.cuts_parenthesized
  | cons q rest ih =>
      have hkeyword : Token.lexicon.Cuts ['A', 'N', 'D'] [['A', 'N', 'D']] :=
        .single (by decide) (by decide)
      have hcuts := Token.cuts_spaced p.cuts_parenthesized (Token.cuts_spaced hkeyword (ih q))
      simpa [conjunction, following] using hcuts

/-! ## Reading a conjunction -/

/-- A part in parentheses completes the join that waits for it. -/
theorem steps_enclosed (p : Part) (position : Nat) (join : Option Join) :
    Reading.steps ⟨position, [], .term join⟩ p.enclosed =
      (Reading.completed p.tree.measured join).map fun progress =>
        ⟨position + p.enclosed.length, [], progress⟩ :=
  (IsTerm.parentheses p.isRule).steps position [] join (Tree.depth_of_parse p.parse)
    p.nestsWithin_enclosed

/-- What comes of reading is what comes of joining rules: the same rule, or the fault of a
rule that is too high. -/
inductive Mirrors : Except Fault Reading → Except Error Tree → Prop where
  | rule (position : Nat) (t : MeasuredTree) : Mirrors (.ok ⟨position, [], .rule t⟩) (.ok t.tree)
  | tooHigh (position depth : Nat) :
      Mirrors (.error (position, .tooHigh)) (.error (.tooDeep depth))

/-- Behind a rule, reading the tokens of further parts is joining their rules to it. -/
theorem mirrors_conjoinOnto (parts : List Part) (left : MeasuredTree) (position : Nat) :
    Mirrors (Reading.steps ⟨position, [], .rule left⟩ (following parts))
      (left.conjoinOnto (parts.map text)) := by
  induction parts generalizing left position with
  | nil => exact .rule position left
  | cons p rest ih =>
      have hkeyword : LogicalOp.ofKeyword? "AND" = some .and := rfl
      rw [List.map_cons, MeasuredTree.conjoinOnto, p.parse]
      simp only [following, List.flatMap_cons, List.cons_append, Reading.steps, Reading.step,
        hkeyword, Reading.steps_append, steps_enclosed, Reading.completed, MeasuredTree.join]
      cases MeasuredTree.join? .and left p.tree.measured with
      | none => exact .tooHigh _ _
      | some joined => exact ih joined _

theorem mirrors_conjoin (p : Part) (rest : List Part) :
    Mirrors (Reading.start.steps (p.enclosed ++ following rest))
      (Tree.conjoin ((p :: rest).map text)) := by
  have hfirst : Reading.start.steps p.enclosed =
      .ok ⟨0 + p.enclosed.length, [], .rule p.tree.measured⟩ :=
    p.steps_enclosed 0 none
  rw [List.map_cons, Tree.conjoin, p.parse, Reading.steps_append, hfirst]
  exact mirrors_conjoinOnto rest p.tree.measured _

/-- Parts of a conjunction are joined to the rule that their conjunction is, or both fail
because that rule is too high. -/
theorem conjoin_or_tooHigh (p : Part) (rest : List Part) :
    let texts := (p :: rest).map text
    (∃ tree, Tree.conjoin texts = .ok tree ∧ Tree.parse (conjunction texts) = .ok tree) ∨
      ∃ depth position, Tree.conjoin texts = .error (.tooDeep depth) ∧
        Tree.parse (conjunction texts) = .error (.syntaxFault position .tooHigh) := by
  intro texts
  have hmirrors := mirrors_conjoin p rest
  have hscan : Token.scan (conjunction texts) = .ok (p.enclosed ++ following rest) :=
    Token.scan_eq_ok_iff.2 (cuts_conjunction p rest)
  have hne : (p.enclosed ++ following rest).isEmpty = false := rfl
  simp only [Tree.parse, hscan, Tree.ofTokens, hne, Bool.false_eq_true, if_false]
  generalize Reading.start.steps (p.enclosed ++ following rest) = outcome at hmirrors
  generalize Tree.conjoin ((p :: rest).map text) = conjoined at hmirrors
  cases hmirrors with
  | rule position t => exact .inl ⟨t.tree, rfl, rfl⟩
  | tooHigh position depth => exact .inr ⟨depth, position, rfl, rfl⟩

/-- The texts of a list are those of parts, if each is a rule that nests parentheses less
deep than the limit. -/
theorem exists_map_text_eq {texts : List String}
    (h : ∀ text ∈ texts, ∃ tokens tree, Token.scan text = .ok tokens ∧
      Tree.parse text = .ok tree ∧ ∀ start, start <+: tokens → openParentheses start ≤ 99) :
    ∃ parts : List Part, parts.map text = texts := by
  induction texts with
  | nil => exact ⟨[], rfl⟩
  | cons text rest ih =>
      obtain ⟨parts, rfl⟩ := ih fun other hother => h other (.tail _ hother)
      obtain ⟨tokens, tree, hscan, hparse, hnests⟩ := h text (.head _)
      have hwithin : NestsWithin 1 tokens := by
        intro start hs
        have hstart := hnests start hs
        simp only [maxDepth]
        omega
      exact ⟨⟨text, tokens, tree, hscan, hparse, hwithin⟩ :: parts, rfl⟩

end Part

/-- Let each text of a list be a rule that nests parentheses at most 99 deep.  After any
calls, joining the texts by AND gives a rule exactly if their conjunction is that rule; and
where the joined rule is too high, so is the conjunction as a text. -/
theorem Process.conjoin_eq_ok_iff_parse (calls : List Call) {texts : List String}
    (hne : texts ≠ [])
    (h : ∀ text ∈ texts, ∃ tokens tree, Token.scan text = .ok tokens ∧
      Tree.parse text = .ok tree ∧ ∀ start, start <+: tokens → openParentheses start ≤ 99) :
    let conjoined := ((start.after calls).cache.conjoin texts).1
    (∀ tree, conjoined = .ok tree ↔ Tree.parse (conjunction texts) = .ok tree) ∧
      ∀ depth, conjoined = .error (.tooDeep depth) →
        ∃ position, Tree.parse (conjunction texts) = .error (.syntaxFault position .tooHigh) := by
  intro conjoined
  have hsound : (start.after calls).cache.Sound := sound_after (.of_empty rfl) calls
  have hplain : conjoined = Tree.conjoin texts := (hsound.conjoin texts).1
  obtain ⟨parts, rfl⟩ := Part.exists_map_text_eq h
  rw [hplain]
  cases parts with
  | nil => exact absurd rfl hne
  | cons p rest =>
      rcases p.conjoin_or_tooHigh rest with ⟨tree, hconjoin, hparse⟩ |
        ⟨depth, position, hconjoin, hparse⟩
      · rw [hconjoin, hparse]
        exact ⟨fun _ => .rfl, by simp⟩
      · rw [hconjoin, hparse]
        exact ⟨by simp, fun _ _ => ⟨position, rfl⟩⟩

/-- Three parts, with an operator, parentheses and a keyword inside them; and as many parts
as make a rule that is one too high. -/
theorem Process.conjoin_eq_ok_iff_parse_three :
    let parts := ["a > 1 OR b < 2", "(c = ') AND (')", "d = -3"]
    let tree : Tree := .operator .and
      (.operator .and
        (.operator .or (.leaf ⟨"a", .greater, .int 1⟩) (.leaf ⟨"b", .less, .int 2⟩))
        (.leaf ⟨"c", .equal, .text ") AND ("⟩))
      (.leaf ⟨"d", .equal, .int (-3)⟩)
    conjunction parts = "(a > 1 OR b < 2) AND ((c = ') AND (')) AND (d = -3)" ∧
      Tree.parse (conjunction parts) = .ok tree ∧
      ∃ position, Tree.parse (conjunction (.replicate 101 "a = 1")) =
        .error (.syntaxFault position .tooHigh) := by
  intro parts tree
  have hpart : ∀ text tokens tree, Token.scan text = .ok tokens → Tree.parse text = .ok tree →
      (∀ n ≤ tokens.length, openParentheses (tokens.take n) ≤ 99) →
      ∃ tokens tree, Token.scan text = .ok tokens ∧ Tree.parse text = .ok tree ∧
        ∀ start, start <+: tokens → openParentheses start ≤ 99 := by
    intro text tokens tree hscan hparse hnests
    refine ⟨tokens, tree, hscan, hparse, ?_⟩
    intro start hs
    rw [List.prefix_iff_eq_take.1 hs]
    exact hnests start.length hs.length_le
  refine ⟨by decide +kernel, ?_, ?_⟩
  · have hparts : ((start.after []).cache.conjoin parts).1 = .ok tree := by decide +kernel
    refine ((conjoin_eq_ok_iff_parse [] (by decide) ?_).1 tree).1 hparts
    simp only [parts, List.forall_mem_cons, List.not_mem_nil, false_imp_iff, implies_true,
      and_true]
    refine ⟨hpart _ ["a", ">", "1", "OR", "b", "<", "2"] _ rfl rfl ?_,
      hpart _ ["(", "c", "=", "') AND ('", ")"] _ rfl rfl ?_,
      hpart _ ["d", "=", "-3"] _ rfl rfl ?_⟩ <;> decide +kernel
  · have htooHigh : ((start.after []).cache.conjoin (.replicate 101 "a = 1")).1 =
        .error (.tooDeep 101) := by decide +kernel
    refine (conjoin_eq_ok_iff_parse [] (by decide) ?_).2 101 htooHigh
    intro text htext
    rw [List.eq_of_mem_replicate htext]
    exact hpart _ ["a", "=", "1"] _ rfl rfl (by decide +kernel)

end Rulebook
