import Rulebook.Proofs.Numeral
import Rulebook.Proofs.Rule.Acceptance
import Rulebook.Proofs.Rule.Literal
import Rulebook.Proofs.Rule.Token

/-!
# Rules are read back from their display

A rule is legible if its fields are names and tokens, and each of its values displays as a
token that stands for it (`Tree.IsLegible`).  The tokens that it displays as are then known
(`Tree.displayTokens`): the display falls into them (`cuts_display`), they write the rule
(`isTerm_displayTokens`), and they nest parentheses less deep than the rule is high
(`nestsWithin_displayTokens`).  So a legible rule within the limit is read back from its
display (`Tree.IsLegible.parse_eq_ok`).

Integers, and texts without quotes, are legible (`Value.IsLegible.int`,
`Value.IsLegible.text`).
-/

namespace Rulebook

/-! ## Legible values -/

/-- A value displays as one token, which stands for it. -/
structure Value.IsLegible (v : Value) : Prop where
  /-- The display is one token. -/
  cuts : Token.lexicon.Cuts v.display.toList [v.display.toList]
  /-- The token stands for the value. -/
  ofToken : Literal.ofToken v.display = .ok v

/-- A text is legible if it holds no quote. -/
theorem Value.IsLegible.text {s : String} (h : '\'' ∉ s.toList) : (Value.text s).IsLegible := by
  have hdisplay : (Value.text s).display.toList = '\'' :: (s.toList ++ ['\'']) := by
    simp [display]
  constructor
  · rw [hdisplay]
    exact .single (by decide) (Token.lexeme?_quoted h)
  · exact Literal.ofToken_of_quoted s

theorem Numeral.text_ofInt (i : Int) : (ofInt i).text =
    (if decide (i < 0) then ['-'] else []) ++ Nat.toDigits 10 i.natAbs := by
  simp [text, ofInt]

/-- An integer is a word, or a minus sign with digits. -/
theorem Token.cuts_ofInt (i : Int) :
    lexicon.Cuts (Numeral.ofInt i).text [(Numeral.ofInt i).text] := by
  have hdigits := Text.all_isDigit (Numeral.all_isDigit_toDigits i.natAbs)
  rw [Numeral.text_ofInt]
  split
  next => exact .single (by decide) (lexeme?_minus Nat.toDigits_ne_nil hdigits)
  next =>
    refine cuts_word Nat.toDigits_ne_nil ?_
    rw [List.all_eq_true] at hdigits ⊢
    exact fun c hc => Text.isWordChar_of_isDigit (hdigits c hc)

theorem Literal.ofToken_ofInt (i : Int64) :
    ofToken (String.ofList (Numeral.ofInt i.toInt).text) = .ok (.int i) := by
  have hform : IsInteger (String.ofList (Numeral.ofInt i.toInt).text) (decide (i.toInt < 0))
      (Nat.toDigits 10 i.toInt.natAbs) := by
    refine .of_isDigits ?_ (Numeral.isDigits_toDigits i.toInt.natAbs)
    rw [String.toList_ofList, Numeral.text_ofInt]
  have hvalue : (if decide (i.toInt < 0) then
        -((Numeral.decimal (Nat.toDigits 10 i.toInt.natAbs) : Nat) : Int)
      else Numeral.decimal (Nat.toDigits 10 i.toInt.natAbs)) = i.toInt := by
    rw [← Numeral.digitsValue_eq, Numeral.digitsValue, Nat.ofDigitChars_ten_toDigits]
    simp only [decide_eq_true_eq]
    omega
  obtain ⟨hfits, -⟩ := hform.ofToken
  rw [hvalue] at hfits
  obtain ⟨j, hj, htoken⟩ := hfits ⟨i.le_toInt, Int.le_sub_one_of_lt i.toInt_lt⟩
  rwa [Int64.toInt_inj.1 hj] at htoken

theorem Value.IsLegible.int (i : Int64) : (Value.int i).IsLegible where
  cuts := by
    rw [display, String.toList_ofList]
    exact Token.cuts_ofInt i.toInt
  ofToken := Literal.ofToken_ofInt i

/-! ## The tokens of a display -/

namespace Tree

/-- The fields of a rule are names of fields and tokens, and its values are legible. -/
inductive IsLegible : Tree → Prop where
  | leaf {c : Condition} : isFieldName c.field = true → Token.scan c.field = .ok [c.field] →
      c.literal.IsLegible → IsLegible (.leaf c)
  | operator {op : LogicalOp} {left right : Tree} :
      IsLegible left → IsLegible right → IsLegible (.operator op left right)

theorem isLegible_of_forall {tree : Tree}
    (hfields : ∀ field ∈ tree.fields, isFieldName field = true ∧ Token.scan field = .ok [field])
    (hliterals : ∀ v ∈ tree.literals, v.IsLegible) : tree.IsLegible := by
  induction tree with
  | leaf c =>
      obtain ⟨hname, hscan⟩ := hfields _ (.head _)
      exact .leaf hname hscan (hliterals _ (.head _))
  | operator op left right ihleft ihright =>
      rw [fields, List.forall_mem_append] at hfields
      rw [literals, List.forall_mem_append] at hliterals
      exact .operator (ihleft hfields.1 hliterals.1) (ihright hfields.2 hliterals.2)

/-- The tokens that a rule displays as. -/
def displayTokens : Tree → List Token
  | leaf c => [c.field, c.comparator.symbol, c.literal.display]
  | operator op left right =>
      "(" :: ((left.displayTokens ++ op.keyword :: right.displayTokens) ++ [")"])

theorem IsLegible.isTerm_displayTokens {tree : Tree} (h : tree.IsLegible) :
    IsTerm tree.displayTokens tree := by
  induction h with
  | leaf hname _ hliteral => exact .condition hname hliteral.ofToken
  | operator _ _ ihleft ihright => exact .parentheses (.join (.term ihleft) ihright)

/-- A condition holds no parentheses. -/
theorem nestsWithin_condition {outer : Nat} (houter : outer ≤ maxDepth) {field token : Token}
    (hname : isFieldName field = true) (comparator : Comparator) {literal : Value}
    (hliteral : Literal.ofToken token = .ok literal) :
    NestsWithin outer [field, comparator.symbol, token] := by
  have hsymbol : comparator.symbol ≠ "(" ∧ comparator.symbol ≠ ")" := by
    cases comparator <;> decide
  have hvalue : NestsWithin outer [token] :=
    (NestsWithin.nil houter).cons (Literal.ofToken_ne_open hliteral)
      (Literal.ofToken_ne_close hliteral)
  exact (hvalue.cons hsymbol.1 hsymbol.2).cons (isFieldName_ne_open hname)
    (isFieldName_ne_close hname)

/-- The parentheses of a display nest less deep than the rule is high. -/
theorem IsLegible.nestsWithin_displayTokens {tree : Tree} (h : tree.IsLegible) {outer : Nat}
    (hdepth : outer + tree.depth ≤ maxDepth + 1) : NestsWithin outer tree.displayTokens := by
  induction h generalizing outer with
  | @leaf c hname _ hliteral =>
      rw [depth] at hdepth
      exact nestsWithin_condition (by omega) hname c.comparator hliteral.ofToken
  | @operator op left right hleft hright ihleft ihright =>
      rw [depth] at hdepth
      have hbalanced := hleft.isTerm_displayTokens.openParentheses
      have hkeyword : op.keyword ≠ "(" ∧ op.keyword ≠ ")" := by
        cases op <;> decide
      refine .parentheses (.append (ihleft (by omega)) hbalanced ?_) ?_
      · exact (ihright (by omega)).cons hkeyword.1 hkeyword.2
      · rw [openParentheses_append, hbalanced, openParentheses_keyword,
          hright.isTerm_displayTokens.openParentheses, Int.add_zero]

theorem IsLegible.cuts_display {tree : Tree} (h : tree.IsLegible) :
    Token.lexicon.Cuts tree.display.toList (tree.displayTokens.map String.toList) := by
  induction h with
  | @leaf c _ hscan hliteral =>
      have hfield : Token.lexicon.Cuts c.field.toList [c.field.toList] :=
        Token.scan_eq_ok_iff.1 hscan
      have hsymbol : Token.lexicon.Cuts c.comparator.symbol.toList
          [c.comparator.symbol.toList] := by
        cases c.comparator <;> exact .single (by decide) (by decide)
      have hcuts := Token.cuts_spaced hfield (Token.cuts_spaced hsymbol hliteral.cuts)
      simpa [display, Condition.display, displayTokens] using hcuts
  | @operator op left right _ _ ihleft ihright =>
      have hkeyword : Token.lexicon.Cuts op.keyword.toList [op.keyword.toList] := by
        cases op <;> exact .single (by decide) (by decide)
      have hcuts := Token.cuts_parentheses
        (Token.cuts_spaced ihleft (Token.cuts_spaced hkeyword ihright))
      simpa [display, displayTokens] using hcuts

/-- A legible rule within the limit is read back from its display. -/
theorem IsLegible.parse_eq_ok {tree : Tree} (h : tree.IsLegible)
    (hdepth : tree.depth ≤ maxDepth) : Tree.parse tree.display = .ok tree := by
  have hnests : NestsWithin 0 tree.displayTokens := h.nestsWithin_displayTokens (by omega)
  exact parse_eq_ok_iff.2 ⟨tree.displayTokens, Token.scan_eq_ok_iff.2 h.cuts_display,
    (IsRule.term h.isTerm_displayTokens).ofTokens hdepth hnests⟩

/-! ## Integers and texts -/

/-- A rule within the limit is read back from its display, provided that each field is a
name of fields and a token by itself, no value is a floating-point number, and no text
holds a quote. -/
theorem parse_display {tree : Tree} (hdepth : tree.depth ≤ maxDepth)
    (hfields : ∀ field ∈ tree.fields, Token.scan field = .ok [field] ∧ isFieldName field = true)
    (hfloats : ∀ x, .float x ∉ tree.literals)
    (htexts : ∀ s, .text s ∈ tree.literals → '\'' ∉ s.toList) :
    Tree.parse tree.display = .ok tree := by
  refine (isLegible_of_forall (fun field hfield => (hfields field hfield).symm) ?_).parse_eq_ok
    hdepth
  intro v hv
  cases v with
  | int i => exact .int i
  | text s => exact .text (htexts s hv)
  | float x => exact absurd hv (hfloats x)

/-- Fields of other scripts, the least integer, and texts that look like other tokens. -/
theorem parse_display_mixed :
    let tree : Tree := .operator .or
      (.operator .and (.leaf ⟨"_größe٣", .less, .int (-9223372036854775808)⟩)
        (.leaf ⟨"b", .equal, .text ") OR -1.5\n"⟩))
      (.leaf ⟨"ANDOR", .greater, .text ""⟩)
    tree.display = "((_größe٣ < -9223372036854775808 AND b = ') OR -1.5\n') OR ANDOR > '')" ∧
      Tree.parse tree.display = .ok tree := by
  intro tree
  refine ⟨by decide +kernel, parse_display ?_ ?_ ?_ ?_⟩
  · decide +kernel
  · decide +kernel
  · simp [tree, literals]
  · simp [tree, literals]

end Tree

end Rulebook
