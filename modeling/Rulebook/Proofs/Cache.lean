import Rulebook.Cache
import Rulebook.Proofs.Evaluation
import Rulebook.Proofs.Text.Lexeme

/-!
# The cache does not show

In a sound cache every text is bound to its own rule (`ParseCache.Sound`).  On a sound cache
every operation has the result that it has without a cache, and leaves a sound cache
(`Transparent`); this is shown for reading (`ParseCache.Sound.parse`) and follows for
everything that is read through it.

Blank texts are exactly those that are empty rules (`Tree.parse_eq_emptyRule_iff`).
-/

namespace Rulebook

/-! ## Blank texts -/

theorem Token.scan_eq_nil_iff (text : String) :
    Token.scan text = .ok [] ↔ Text.isBlankText text = true := by
  rw [Text.isBlankText, ← show Token.lexicon.isSeparator = Text.isBlank from rfl,
    ← Text.Lexicon.cut_eq_nil_iff, Token.scan]
  cases Token.lexicon.cut text.toList with
  | error uncut => simp
  | ok lexemes => simp

theorem Tree.ofTokens_eq_emptyRule_iff (tokens : List Token) :
    Tree.ofTokens tokens = .error .emptyRule ↔ tokens = [] := by
  rw [Tree.ofTokens]
  cases tokens with
  | nil => simp
  | cons token rest =>
      simp only [List.isEmpty_cons, Bool.false_eq_true, if_false, reduceCtorEq, iff_false]
      cases Reading.start.steps (token :: rest) with
      | error fault => simp
      | ok r => cases h : r.finish <;> simp [h]

/-- A text is an empty rule exactly if it is blank. -/
theorem Tree.parse_eq_emptyRule_iff (text : String) :
    Tree.parse text = .error .emptyRule ↔ Text.isBlankText text = true := by
  rw [← Token.scan_eq_nil_iff, Tree.parse]
  cases h : Token.scan text with
  | error e =>
      unfold Token.scan at h
      split at h <;> cases h
      simp
  | ok tokens =>
      simp only [Tree.ofTokens_eq_emptyRule_iff, Except.ok.injEq]

/-- An evaluation does not fail as reading an empty rule does. -/
theorem Tree.evaluate_ne_emptyRule (record : Record) (t : Tree) :
    t.evaluate record ≠ .error .emptyRule := by
  intro h
  cases Tree.isOfEvaluation h

/-! ## Sound caches -/

namespace ParseCache

/-- Every rule that is kept is the rule of its text. -/
def Sound (c : ParseCache) : Prop :=
  ∀ text tree, c.trees.get? text = some tree → Tree.parse text = .ok tree

/-- An operation has the result `plain`, and leaves a sound cache. -/
def Transparent {α : Type} (outcome : α × ParseCache) (plain : α) : Prop :=
  outcome.1 = plain ∧ outcome.2.Sound

theorem Sound.of_empty {c : ParseCache} (h : c.trees = .empty) : c.Sound := by
  intro text tree ht
  rw [h, Table.get?_empty] at ht
  cases ht

theorem Sound.clear (c : ParseCache) : c.clear.Sound := .of_empty rfl

theorem Sound.configure {c : ParseCache} (h : c.Sound) (enabled : Bool) (capacity : Nat) :
    (c.configure enabled capacity).Sound := by
  intro text tree ht
  simp only [ParseCache.configure] at ht
  split at ht
  · rw [Table.get?_empty] at ht
    cases ht
  · exact h text tree ht

theorem Sound.remember {c : ParseCache} (h : c.Sound) {text : String} {tree : Tree}
    (hp : Tree.parse text = .ok tree) : (c.remember text tree).Sound := by
  intro other kept hk
  unfold ParseCache.remember at hk
  split at hk
  · exact h other kept hk
  · simp only [Table.get?_insert] at hk
    split at hk
    next heq =>
      cases hk
      rw [heq, hp]
    next =>
      split at hk
      · rw [Table.get?_empty] at hk
        cases hk
      · exact h other kept hk

/-- Reading a text through a sound cache is reading it. -/
theorem Sound.parse {c : ParseCache} (h : c.Sound) (text : String) :
    Transparent (c.parse text) (Tree.parse text) := by
  unfold ParseCache.parse
  split
  next =>
    split
    next tree hk => exact ⟨(h text tree hk).symm, h⟩
    next =>
      split
      next e he => exact ⟨he.symm, h⟩
      next tree ht => exact ⟨ht.symm, h.remember ht⟩
  next => exact ⟨rfl, h⟩

/-! ## What is read through the cache -/

theorem Sound.check {c : ParseCache} (h : c.Sound) (text : String) (record : Record) :
    Transparent (c.check text record)
      (if Text.isBlankText text then .ok true
        else (Tree.parse text).bind (·.evaluate record)) := by
  obtain ⟨hr, hc⟩ := h.parse text
  unfold ParseCache.check
  split
  next => exact ⟨rfl, h⟩
  next =>
    rw [← hr]
    generalize c.parse text = outcome at hc
    obtain ⟨result, c'⟩ := outcome
    cases result <;> exact ⟨rfl, hc⟩

theorem Sound.parseAll {c : ParseCache} (h : c.Sound) (texts : List String) :
    Transparent (c.parseAll texts) (Tree.parseAll texts) := by
  induction texts generalizing c with
  | nil => exact ⟨rfl, h⟩
  | cons text rest ih =>
      obtain ⟨hr, hc⟩ := h.parse text
      rw [ParseCache.parseAll, Tree.parseAll, ← hr]
      generalize c.parse text = outcome at hc
      obtain ⟨result, c'⟩ := outcome
      cases result with
      | error e => exact ⟨rfl, hc⟩
      | ok tree =>
          obtain ⟨hrest, hc'⟩ := ih hc
          exact ⟨congrArg (Except.map _) hrest, hc'⟩

theorem Sound.combine {c : ParseCache} (h : c.Sound) (texts : List String) :
    Transparent (c.combine texts) (Tree.combine texts) := by
  obtain ⟨hr, hc⟩ := h.parseAll texts
  rw [ParseCache.combine, Tree.combine, ← hr]
  generalize c.parseAll texts = outcome at hc
  obtain ⟨result, c'⟩ := outcome
  cases result <;> exact ⟨rfl, hc⟩

theorem Sound.conjoinOnto {c : ParseCache} (h : c.Sound) (left : MeasuredTree)
    (texts : List String) :
    Transparent (c.conjoinOnto left texts) (left.conjoinOnto texts) := by
  induction texts generalizing c left with
  | nil => exact ⟨rfl, h⟩
  | cons text rest ih =>
      obtain ⟨hr, hc⟩ := h.parse text
      rw [ParseCache.conjoinOnto, MeasuredTree.conjoinOnto, ← hr]
      generalize c.parse text = outcome at hc
      obtain ⟨result, c'⟩ := outcome
      cases result with
      | error e => exact ⟨rfl, hc⟩
      | ok right =>
          simp only
          cases MeasuredTree.join .and left right.measured with
          | error e => exact ⟨rfl, hc⟩
          | ok joined => exact ih hc joined

theorem Sound.conjoin {c : ParseCache} (h : c.Sound) (texts : List String) :
    Transparent (c.conjoin texts) (Tree.conjoin texts) := by
  cases texts with
  | nil => exact ⟨rfl, h⟩
  | cons text rest =>
      obtain ⟨hr, hc⟩ := h.parse text
      rw [ParseCache.conjoin, Tree.conjoin, ← hr]
      generalize c.parse text = outcome at hc
      obtain ⟨result, c'⟩ := outcome
      cases result with
      | error e => exact ⟨rfl, hc⟩
      | ok tree => exact hc.conjoinOnto tree.measured rest

end ParseCache

end Rulebook
