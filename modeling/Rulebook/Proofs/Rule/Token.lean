import Rulebook.Proofs.Text.Class
import Rulebook.Proofs.Text.Cuts
import Rulebook.Rule.Token

/-!
# The tokens at the start of a text

A token has a character and is the start of its text (`Token.isProper_lexicon`), so a text is
scanned to tokens exactly if it falls into them (`Token.scan_eq_ok_iff`).

A boundary is a character that goes on with no token before it.  Whatever follows a text
behind a boundary, the tokens of the text stay as they are
(`Token.endsBefore_of_boundary`); blanks and parentheses are boundaries.

The ways to take a token follow one another in the order of `Token.lexeme?`; the lemmas on
each of them come in this order.
-/

namespace Rulebook.Token

open Text

/-! ## The ways to take a token -/

theorem doubleSymbol?_singleton (c : Char) : doubleSymbol? [c] = none := by
  unfold doubleSymbol?
  split <;> simp_all

theorem doubleSymbol?_cons_cons (c d : Char) (rest : List Char) :
    doubleSymbol? (c :: d :: rest) =
      if [c, d] ∈ [['=', '>'], ['<', '='], ['>', '='], ['&', '&'], ['|', '|']] then some [c, d]
      else none := by
  unfold doubleSymbol?
  split <;> simp_all

theorem doubleSymbol?_of_not_mem {c : Char} (h : c ∉ ['=', '<', '>', '&', '|'])
    (rest : List Char) : doubleSymbol? (c :: rest) = none := by
  cases rest with
  | nil => exact doubleSymbol?_singleton c
  | cons d rest =>
      simp only [List.mem_cons, List.not_mem_nil, or_false, not_or] at h
      simp [doubleSymbol?_cons_cons, h]

theorem quoted?_of_ne {c : Char} (h : c ≠ '\'') (rest : List Char) :
    quoted? (c :: rest) = none := by
  unfold quoted?
  split
  next heq => exact absurd (List.cons.inj heq).1 h
  next => rfl

/-- A quoted text ends at the next quote. -/
theorem quoted?_run {inner : List Char} (h : '\'' ∉ inner) (after : List Char) :
    quoted? ('\'' :: (inner ++ '\'' :: after)) = some ('\'' :: (inner ++ ['\''])) := by
  have hinner : inner.all (· != '\'') = true := by
    rw [List.all_eq_true]
    intro c hc
    rw [bne_iff_ne]
    rintro rfl
    exact h hc
  have hrun := @takeWhile_run _ inner ('\'' :: after) hinner (by simp)
  simp [quoted?, hrun]

theorem exists_of_quoted?_eq_some {text w : List Char} (h : quoted? text = some w) :
    ∃ inner after, '\'' ∉ inner ∧ text = '\'' :: (inner ++ '\'' :: after) ∧
      w = '\'' :: (inner ++ ['\'']) := by
  unfold quoted? at h
  split at h
  next rest =>
    split at h
    next hquote =>
      obtain ⟨inner, after, rfl, hinner⟩ :=
        List.eq_append_cons_of_mem (List.contains_iff_mem.1 hquote)
      have hrun := quoted?_run hinner after
      rw [quoted?, if_pos hquote] at hrun
      exact ⟨inner, after, hinner, rfl, Option.some.inj (h.symm.trans hrun)⟩
    next => cases h
  next => cases h

theorem signed?_of_ne {c : Char} (h : c ≠ '-') (rest : List Char) :
    signed? (c :: rest) = none := by
  unfold signed?
  split
  next heq => exact absurd (List.cons.inj heq).1 h
  next => rfl

theorem fraction?_of_ne {c : Char} (h : c ≠ '.') (rest : List Char) :
    fraction? (c :: rest) = none := by
  unfold fraction?
  split
  next heq => exact absurd (List.cons.inj heq).1 h
  next => rfl

/-- A text that starts with a quote has no other token at its start than a quoted text. -/
theorem lexeme?_quote (rest : List Char) : lexeme? ('\'' :: rest) = quoted? ('\'' :: rest) := by
  have hdigits : digits? ('\'' :: rest) = none := by
    simp [digits?, show isDigit '\'' = false by decide]
  have hword : word? ('\'' :: rest) = none := by
    simp [word?, show isWordChar '\'' = false by decide]
  rw [lexeme?, doubleSymbol?_of_not_mem (by simp), hword, signed?_of_ne (by simp), decimal?,
    hdigits]
  simp [singleSymbol?]

theorem lexeme?_of_ne_quote {c : Char} (h : c ≠ '\'') (rest : List Char) :
    lexeme? (c :: rest) =
      (doubleSymbol? (c :: rest) <|> signed? (c :: rest) <|> decimal? (c :: rest) <|>
        singleSymbol? (c :: rest) <|> word? (c :: rest)) := by
  rw [lexeme?, quoted?_of_ne h]
  simp

/-! ## Tokens are the start of their texts -/

theorem isPrefix_doubleSymbol? {text w : List Char} (h : doubleSymbol? text = some w) :
    w ≠ [] ∧ w <+: text := by
  unfold doubleSymbol? at h
  split at h <;> cases h <;> simp

theorem isPrefix_singleSymbol? {text w : List Char} (h : singleSymbol? text = some w) :
    w ≠ [] ∧ w <+: text := by
  cases text with
  | nil => cases h
  | cons c rest =>
      rw [singleSymbol?] at h
      split at h
      next =>
        cases h
        simp
      next => cases h

theorem isPrefix_quoted? {text w : List Char} (h : quoted? text = some w) :
    w ≠ [] ∧ w <+: text := by
  obtain ⟨inner, after, -, rfl, rfl⟩ := exists_of_quoted?_eq_some h
  simp

theorem isPrefix_digits? {text w : List Char} (h : digits? text = some w) :
    w ≠ [] ∧ w <+: text := by
  simp only [digits?] at h
  split at h
  next => cases h
  next hne =>
    cases h
    exact ⟨by simpa using hne, List.takeWhile_prefix _⟩

theorem isPrefix_fraction? {text w : List Char} (h : fraction? text = some w) :
    w ≠ [] ∧ w <+: text := by
  unfold fraction? at h
  split at h
  next rest =>
    obtain ⟨digits, hdigits, rfl⟩ := Option.map_eq_some_iff.1 h
    exact ⟨by simp, by simpa using (isPrefix_digits? hdigits).2⟩
  next => cases h

/-- Digits at the start of a text and a part at the start of the rest are the start of the
text. -/
theorem isPrefix_append_of_drop {digits part text : List Char} (h : digits <+: text)
    (hpart : part <+: text.drop digits.length) : digits ++ part <+: text := by
  obtain ⟨rest, rfl⟩ := h
  rw [List.drop_left] at hpart
  simpa using hpart

theorem isPrefix_signed? {text w : List Char} (h : signed? text = some w) :
    w ≠ [] ∧ w <+: text := by
  unfold signed? at h
  split at h
  next rest =>
    obtain ⟨digits, hdigits, rfl⟩ := Option.map_eq_some_iff.1 h
    refine ⟨by simp, ?_⟩
    have hpart : (fraction? (rest.drop digits.length)).getD [] <+: rest.drop digits.length := by
      cases hfraction : fraction? (rest.drop digits.length) with
      | none => simp
      | some part => exact (isPrefix_fraction? hfraction).2
    simpa using isPrefix_append_of_drop (isPrefix_digits? hdigits).2 hpart
  next => cases h

theorem isPrefix_decimal? {text w : List Char} (h : decimal? text = some w) :
    w ≠ [] ∧ w <+: text := by
  obtain ⟨digits, hdigits, hrest⟩ := Option.bind_eq_some_iff.1 h
  obtain ⟨part, hfraction, rfl⟩ := Option.map_eq_some_iff.1 hrest
  obtain ⟨hne, hstart⟩ := isPrefix_digits? hdigits
  exact ⟨by simp [hne], isPrefix_append_of_drop hstart (isPrefix_fraction? hfraction).2⟩

theorem isPrefix_word? {text w : List Char} (h : word? text = some w) :
    w ≠ [] ∧ w <+: text := by
  simp only [word?] at h
  split at h
  next => cases h
  next hne =>
    cases h
    exact ⟨by simpa using hne, List.takeWhile_prefix _⟩

theorem isProper_lexicon : lexicon.IsProper := by
  intro text w h
  simp only [lexicon, lexeme?, Option.orElse_eq_orElse, Option.orElse_eq_or,
    Option.or_eq_some_iff] at h
  rcases h with h | ⟨-, h | ⟨-, h | ⟨-, h | ⟨-, h | ⟨-, h⟩⟩⟩⟩⟩
  · exact isPrefix_doubleSymbol? h
  · exact isPrefix_quoted? h
  · exact isPrefix_signed? h
  · exact isPrefix_decimal? h
  · exact isPrefix_singleSymbol? h
  · exact isPrefix_word? h

/-- A text is scanned to tokens exactly if it falls into them. -/
theorem scan_eq_ok_iff {text : String} {tokens : List Token} :
    scan text = .ok tokens ↔ lexicon.Cuts text.toList (tokens.map String.toList) := by
  rw [← Lexicon.cut_eq_ok_iff isProper_lexicon, scan]
  cases lexicon.cut text.toList with
  | error uncut => simp
  | ok lexemes =>
      simp only [Except.ok.injEq]
      constructor
      · rintro rfl
        simp [Function.comp_def]
      · rintro rfl
        simp [Function.comp_def]

/-! ## Boundaries -/

/-- A character that goes on with no token before it: no character of words, no point and
no second character of a symbol. -/
def isBoundary (c : Char) : Bool :=
  !isWordChar c && !(['.', '=', '>', '&', '|'].contains c)

section Boundary

variable {rest : List Char} (hrest : ∀ c ∈ rest.head?, isBoundary c = true)

include hrest

theorem isWordChar_head : ∀ c ∈ rest.head?, isWordChar c = false := by
  intro c hc
  have hboundary := hrest c hc
  rw [isBoundary, Bool.and_eq_true] at hboundary
  simpa using hboundary.1

theorem isDigit_head : ∀ c ∈ rest.head?, isDigit c = false := fun c hc =>
  isDigit_eq_false (isWordChar_head hrest c hc)

theorem not_mem_head : ∀ c ∈ rest.head?, c ∉ ['.', '=', '>', '&', '|'] := by
  intro c hc
  have hboundary := hrest c hc
  rw [isBoundary, Bool.and_eq_true] at hboundary
  simpa using hboundary.2

theorem doubleSymbol?_append (c : Char) (text : List Char) :
    doubleSymbol? (c :: text ++ rest) = doubleSymbol? (c :: text) := by
  cases text with
  | cons d text => simp only [List.cons_append, doubleSymbol?_cons_cons]
  | nil =>
      cases rest with
      | nil => rfl
      | cons d rest =>
          have hd := not_mem_head hrest d rfl
          simp only [List.mem_cons, List.not_mem_nil, or_false, not_or] at hd
          obtain ⟨-, hequal, hgreater, hand, hor⟩ := hd
          simp [doubleSymbol?_cons_cons, doubleSymbol?_singleton, hequal, hgreater, hand, hor]

theorem digits?_append (text : List Char) : digits? (text ++ rest) = digits? text := by
  rw [digits?, digits?, takeWhile_append_of_head text (isDigit_head hrest)]

theorem fraction?_append (text : List Char) : fraction? (text ++ rest) = fraction? text := by
  cases text with
  | nil =>
      cases rest with
      | nil => rfl
      | cons c rest =>
          have hpoint : c ≠ '.' := fun heq => not_mem_head hrest c rfl (heq ▸ .head _)
          exact fraction?_of_ne hpoint rest
  | cons c text =>
      by_cases hpoint : c = '.'
      · subst hpoint
        simp only [List.cons_append, fraction?, digits?_append hrest]
      · rw [List.cons_append, fraction?_of_ne hpoint, fraction?_of_ne hpoint]

theorem fraction?_drop_append {text digits : List Char} (h : digits? text = some digits) :
    fraction? ((text ++ rest).drop digits.length) = fraction? (text.drop digits.length) := by
  rw [List.drop_append_of_le_length (isPrefix_digits? h).2.length_le, fraction?_append hrest]

theorem signed?_append (c : Char) (text : List Char) :
    signed? (c :: text ++ rest) = signed? (c :: text) := by
  by_cases hminus : c = '-'
  · subst hminus
    simp only [List.cons_append, signed?, digits?_append hrest]
    cases hdigits : digits? text with
    | none => rfl
    | some digits =>
        simp only [Option.map_some, fraction?_drop_append hrest hdigits]
  · rw [List.cons_append, signed?_of_ne hminus, signed?_of_ne hminus]

theorem decimal?_append (text : List Char) : decimal? (text ++ rest) = decimal? text := by
  simp only [decimal?, digits?_append hrest]
  cases hdigits : digits? text with
  | none => rfl
  | some digits =>
      simp only [Option.bind_some, fraction?_drop_append hrest hdigits]

theorem word?_append (text : List Char) : word? (text ++ rest) = word? text := by
  rw [word?, word?, takeWhile_append_of_head text (isWordChar_head hrest)]

/-- What follows a text behind a boundary changes none of its tokens. -/
theorem endsBefore_of_boundary : lexicon.EndsBefore rest := by
  intro text w h
  show lexeme? (text ++ rest) = some w
  replace h : lexeme? text = some w := h
  cases text with
  | nil => cases h
  | cons c text =>
      by_cases hquote : c = '\''
      · subst hquote
        rw [lexeme?_quote] at h
        obtain ⟨inner, after, hinner, htext, rfl⟩ := exists_of_quoted?_eq_some h
        rw [List.cons_append, lexeme?_quote, (List.cons.inj htext).2, List.append_assoc]
        exact quoted?_run hinner (after ++ rest)
      · rw [lexeme?_of_ne_quote hquote] at h
        rw [← h, List.cons_append, lexeme?_of_ne_quote hquote, ← List.cons_append,
          doubleSymbol?_append hrest, signed?_append hrest, decimal?_append hrest,
          word?_append hrest]
        rfl

end Boundary

/-! ## Words -/

/-- The characters that stand in tokens other than words and numbers, and the point. -/
def marks : List Char := ['(', ')', '=', '>', '<', '!', '&', '|', '\'', '-', '.']

/-- A text that starts with no mark has a number with a fraction or a word at its start. -/
theorem lexeme?_of_not_mark {c : Char} (h : c ∉ marks) (rest : List Char) :
    lexeme? (c :: rest) = (decimal? (c :: rest) <|> word? (c :: rest)) := by
  simp only [marks, List.mem_cons, List.not_mem_nil, or_false, not_or] at h
  have hsingle : singleSymbol? (c :: rest) = none := by
    simp [singleSymbol?, h]
  rw [lexeme?_of_ne_quote (by simp [h]), doubleSymbol?_of_not_mem (by simp [h]),
    signed?_of_ne (by simp [h]), hsingle]
  simp

theorem not_mark_of_isWordChar {c : Char} (h : isWordChar c = true) : c ∉ marks := by
  have hmarks : marks.any isWordChar = false := by decide
  intro hmem
  exact List.any_eq_false.1 hmarks c hmem h

/-- A number with a fraction has a point. -/
theorem mem_of_decimal?_eq_some {text w : List Char} (h : decimal? text = some w) :
    '.' ∈ text := by
  obtain ⟨digits, -, hrest⟩ := Option.bind_eq_some_iff.1 h
  obtain ⟨part, hfraction, -⟩ := Option.map_eq_some_iff.1 hrest
  cases hdrop : text.drop digits.length with
  | nil =>
      rw [hdrop] at hfraction
      cases hfraction
  | cons c rest =>
      by_cases hpoint : c = '.'
      · subst hpoint
        refine List.mem_of_mem_drop (i := digits.length) ?_
        rw [hdrop]
        exact .head _
      · rw [hdrop, fraction?_of_ne hpoint] at hfraction
        cases hfraction

/-- A word is a token. -/
theorem lexeme?_word {c : Char} {w : List Char} (hw : (c :: w).all isWordChar = true) :
    lexeme? (c :: w) = some (c :: w) := by
  have hmark : ∀ d ∈ c :: w, d ∉ marks := fun d hd =>
    not_mark_of_isWordChar (List.all_eq_true.1 hw d hd)
  have hdecimal : decimal? (c :: w) = none := by
    rw [Option.eq_none_iff_forall_ne_some]
    intro v hv
    exact hmark '.' (mem_of_decimal?_eq_some hv) (by simp [marks])
  have hrun := @takeWhile_run isWordChar (c :: w) [] hw (by simp)
  rw [List.append_nil] at hrun
  rw [lexeme?_of_not_mark (hmark c (.head _)), hdecimal, word?, hrun]
  rfl

theorem cuts_word {w : List Char} (hne : w ≠ []) (hw : w.all isWordChar = true) :
    lexicon.Cuts w [w] := by
  cases w with
  | nil => exact absurd rfl hne
  | cons c w =>
      exact .single (isBlank_of_isWordChar (List.all_eq_true.1 hw c (.head _))) (lexeme?_word hw)

/-- A number with a minus sign is a token. -/
theorem lexeme?_minus {digits : List Char} (hne : digits ≠ [])
    (hdigits : digits.all isDigit = true) : lexeme? ('-' :: digits) = some ('-' :: digits) := by
  have hrun := @takeWhile_run isDigit digits [] hdigits (by simp)
  rw [List.append_nil] at hrun
  have hsigned : signed? ('-' :: digits) = some ('-' :: digits) := by
    simp [signed?, digits?, hrun, hne, fraction?]
  rw [lexeme?_of_ne_quote (by simp), doubleSymbol?_of_not_mem (by simp), hsigned]
  rfl

/-- A text between quotes is a token. -/
theorem lexeme?_quoted {inner : List Char} (h : '\'' ∉ inner) :
    lexeme? ('\'' :: (inner ++ ['\''])) = some ('\'' :: (inner ++ ['\''])) := by
  rw [lexeme?_quote]
  exact quoted?_run h []

theorem lexeme?_open (rest : List Char) : lexeme? ('(' :: rest) = some ['('] := by
  have hdigits : digits? ('(' :: rest) = none := by
    simp [digits?, show isDigit '(' = false by decide]
  rw [lexeme?_of_ne_quote (by simp), doubleSymbol?_of_not_mem (by simp),
    signed?_of_ne (by simp), decimal?, hdigits]
  rfl

/-! ## Tokens side by side -/

theorem cuts_spaced {first second : List Char} {lexemes others : List (List Char)}
    (hf : lexicon.Cuts first lexemes) (hs : lexicon.Cuts second others) :
    lexicon.Cuts (first ++ ' ' :: second) (lexemes ++ others) := by
  refine hf.append (endsBefore_of_boundary ?_) (.separator (by decide) hs)
  intro c hc
  cases hc
  decide

/-- Parentheses around a text stand apart from its tokens. -/
theorem cuts_parentheses {text : List Char} {lexemes : List (List Char)}
    (h : lexicon.Cuts text lexemes) :
    lexicon.Cuts ('(' :: (text ++ [')'])) (['('] :: (lexemes ++ [[')']])) := by
  have hclose : lexicon.Cuts [')'] [[')']] := .single (by decide) (by decide)
  have hinner : lexicon.Cuts (text ++ [')']) (lexemes ++ [[')']]) := by
    refine h.append (endsBefore_of_boundary ?_) hclose
    intro c hc
    cases hc
    decide
  exact @Lexicon.Cuts.lexeme lexicon '(' [] _ _ (by decide) (lexeme?_open _) hinner

end Rulebook.Token
