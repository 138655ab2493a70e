import Rulebook.Proofs.Tree
import Rulebook.Rule.Parse

/-!
# The grammar of rules

What a rule is, without regard to how it is read: `IsRule` and `IsTerm` relate tokens to
the tree that they write.  The grammar knows no limits; how deep parentheses nest is said
apart from it (`openParentheses`, `NestsWithin`).

The tokens of a rule open and close the same parentheses (`IsRule.openParentheses`), since
no field, operator, comparator or literal is a parenthesis.
-/

namespace Rulebook

mutual

/-- The tokens write a rule: terms joined by operators that bind alike and group to the
left. -/
inductive IsRule : List Token → Tree → Prop where
  | term {tokens : List Token} {tree : Tree} : IsTerm tokens tree → IsRule tokens tree
  | join {left right : List Token} {op : LogicalOp} {l r : Tree} :
      IsRule left l → IsTerm right r →
      IsRule (left ++ op.keyword :: right) (.operator op l r)

/-- The tokens write a term: a condition, or a rule in parentheses. -/
inductive IsTerm : List Token → Tree → Prop where
  | condition {field token : Token} {comparator : Comparator} {literal : Value} :
      isFieldName field = true → Literal.ofToken token = .ok literal →
      IsTerm [field, comparator.symbol, token] (.leaf ⟨field, comparator, literal⟩)
  | parentheses {tokens : List Token} {tree : Tree} :
      IsRule tokens tree → IsTerm ("(" :: (tokens ++ [")"])) tree

end

mutual

/-- The fields of a rule are names of fields. -/
theorem IsRule.isFieldName : ∀ {tokens : List Token} {tree : Tree}, IsRule tokens tree →
    ∀ field ∈ tree.fields, isFieldName field = true
  | _, _, .term ht => ht.isFieldName
  | _, _, .join hl hr => fun field hfield =>
      (List.mem_append.1 hfield).elim (hl.isFieldName field) (hr.isFieldName field)

theorem IsTerm.isFieldName : ∀ {tokens : List Token} {tree : Tree}, IsTerm tokens tree →
    ∀ field ∈ tree.fields, isFieldName field = true
  | _, _, .condition hf _ => fun field hfield => by
      rw [List.mem_singleton.1 hfield]
      exact hf
  | _, _, .parentheses hr => hr.isFieldName

end

/-! ## Parentheses -/

/-- How many more parentheses the tokens open than they close. -/
def openParentheses (tokens : List Token) : Int := tokens.count "(" - tokens.count ")"

/-- With `outer` parentheses open before the tokens, at none of them are more open than
the limit allows. -/
def NestsWithin (outer : Nat) (tokens : List Token) : Prop :=
  ∀ start, start <+: tokens → outer + openParentheses start ≤ maxDepth

@[simp] theorem openParentheses_nil : openParentheses [] = 0 := rfl

@[simp] theorem openParentheses_append (first second : List Token) :
    openParentheses (first ++ second) = openParentheses first + openParentheses second := by
  simp only [openParentheses, List.count_append]
  omega

@[simp] theorem openParentheses_open (tokens : List Token) :
    openParentheses ("(" :: tokens) = openParentheses tokens + 1 := by
  simp only [openParentheses, List.count_cons_self,
    List.count_cons_of_ne (show ("(" : Token) ≠ ")" by decide)]
  omega

@[simp] theorem openParentheses_close (tokens : List Token) :
    openParentheses (")" :: tokens) = openParentheses tokens - 1 := by
  simp only [openParentheses, List.count_cons_self,
    List.count_cons_of_ne (show (")" : Token) ≠ "(" by decide)]
  omega

/-- Any other token leaves the open parentheses as they are. -/
theorem openParentheses_cons {token : Token} (tokens : List Token) (hopen : token ≠ "(")
    (hclose : token ≠ ")") : openParentheses (token :: tokens) = openParentheses tokens := by
  simp only [openParentheses, List.count_cons_of_ne hopen, List.count_cons_of_ne hclose]

theorem isFieldName_ne_open {field : Token} (h : isFieldName field = true) : field ≠ "(" := by
  rintro rfl
  exact absurd h (by decide +kernel)

theorem isFieldName_ne_close {field : Token} (h : isFieldName field = true) :
    field ≠ ")" := by
  rintro rfl
  exact absurd h (by decide +kernel)

theorem Literal.ofToken_ne_open {token : Token} {literal : Value}
    (h : Literal.ofToken token = .ok literal) : token ≠ "(" := by
  rintro rfl
  cases h

theorem Literal.ofToken_ne_close {token : Token} {literal : Value}
    (h : Literal.ofToken token = .ok literal) : token ≠ ")" := by
  rintro rfl
  cases h

@[simp] theorem openParentheses_keyword (op : LogicalOp) (tokens : List Token) :
    openParentheses (op.keyword :: tokens) = openParentheses tokens := by
  cases op <;> exact openParentheses_cons tokens (by decide) (by decide)

@[simp] theorem openParentheses_symbol (c : Comparator) (tokens : List Token) :
    openParentheses (c.symbol :: tokens) = openParentheses tokens := by
  cases c <;> exact openParentheses_cons tokens (by decide) (by decide)

theorem openParentheses_field {field : Token} (h : isFieldName field = true)
    (tokens : List Token) : openParentheses (field :: tokens) = openParentheses tokens :=
  openParentheses_cons tokens (isFieldName_ne_open h) (isFieldName_ne_close h)

theorem openParentheses_literal {token : Token} {literal : Value}
    (h : Literal.ofToken token = .ok literal) (tokens : List Token) :
    openParentheses (token :: tokens) = openParentheses tokens :=
  openParentheses_cons tokens (Literal.ofToken_ne_open h) (Literal.ofToken_ne_close h)

mutual

/-- A rule closes the parentheses that it opens. -/
theorem IsRule.openParentheses : ∀ {tokens : List Token} {tree : Tree},
    IsRule tokens tree → Rulebook.openParentheses tokens = 0
  | _, _, .term ht => ht.openParentheses
  | _, _, .join hl hr => by
      rw [openParentheses_append, openParentheses_keyword, hl.openParentheses,
        hr.openParentheses, Int.add_zero]

/-- A term closes the parentheses that it opens. -/
theorem IsTerm.openParentheses : ∀ {tokens : List Token} {tree : Tree},
    IsTerm tokens tree → Rulebook.openParentheses tokens = 0
  | _, _, .condition hf hl => by
      rw [openParentheses_field hf, openParentheses_symbol, openParentheses_literal hl,
        openParentheses_nil]
  | _, _, .parentheses hr => by
      rw [openParentheses_open, openParentheses_append, hr.openParentheses,
        openParentheses_close, openParentheses_nil]
      omega

end

/-! ## Limited nesting -/

theorem NestsWithin.of_prefix {outer : Nat} {first second : List Token}
    (h : NestsWithin outer (first ++ second)) : NestsWithin outer first := by
  intro start hs
  exact h start (hs.trans (List.prefix_append first second))

/-- After tokens that close what they open, the same parentheses are open as before. -/
theorem NestsWithin.of_balanced {outer : Nat} {first second : List Token}
    (h : NestsWithin outer (first ++ second)) (hb : openParentheses first = 0) :
    NestsWithin outer second := by
  intro start hs
  have hall := h (first ++ start) ((List.prefix_append_right_inj first).2 hs)
  rw [openParentheses_append, hb] at hall
  omega

theorem NestsWithin.of_open {outer : Nat} {tokens : List Token}
    (h : NestsWithin outer ("(" :: tokens)) :
    outer < maxDepth ∧ NestsWithin (outer + 1) tokens := by
  constructor
  · have hone := h ["("] ⟨tokens, rfl⟩
    rw [openParentheses_open, openParentheses_nil] at hone
    omega
  · intro start hs
    have hall := h ("(" :: start) ((List.prefix_append_right_inj ["("]).2 hs)
    rw [openParentheses_open] at hall
    omega

theorem NestsWithin.nil {outer : Nat} (h : outer ≤ maxDepth) : NestsWithin outer [] := by
  intro start hs
  rw [List.prefix_nil.1 hs, openParentheses_nil]
  omega

/-- A token that is no parenthesis may stand before tokens that nest within the limit. -/
theorem NestsWithin.cons {outer : Nat} {token : Token} {tokens : List Token}
    (hopen : token ≠ "(") (hclose : token ≠ ")") (h : NestsWithin outer tokens) :
    NestsWithin outer (token :: tokens) := by
  intro start hs
  rcases List.prefix_cons_iff.1 hs with rfl | ⟨tail, rfl, htail⟩
  · exact h [] List.nil_prefix
  · rw [openParentheses_cons tail hopen hclose]
    exact h tail htail

theorem NestsWithin.append {outer : Nat} {first second : List Token}
    (hf : NestsWithin outer first) (hb : openParentheses first = 0)
    (hs : NestsWithin outer second) : NestsWithin outer (first ++ second) := by
  intro start hstart
  rcases List.prefix_or_prefix_of_prefix hstart (List.prefix_append first second) with h | h
  · exact hf start h
  · obtain ⟨tail, rfl⟩ := h
    have htail := hs tail ((List.prefix_append_right_inj first).1 hstart)
    rw [openParentheses_append, hb]
    omega

/-- Parentheses around tokens that close what they open. -/
theorem NestsWithin.parentheses {outer : Nat} {tokens : List Token}
    (h : NestsWithin (outer + 1) tokens) (hb : openParentheses tokens = 0) :
    NestsWithin outer ("(" :: (tokens ++ [")"])) := by
  have hlt := h [] List.nil_prefix
  rw [openParentheses_nil] at hlt
  intro start hs
  rcases List.prefix_cons_iff.1 hs with rfl | ⟨tail, rfl, htail⟩
  · rw [openParentheses_nil]
    omega
  · rw [openParentheses_open]
    rcases List.prefix_concat_iff.1 htail with rfl | htail
    · rw [openParentheses_append, hb, openParentheses_close, openParentheses_nil]
      omega
    · have hinner := h tail htail
      omega

end Rulebook
