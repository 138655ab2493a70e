import Rulebook.Proofs.Rule.Token
import Rulebook.Rule.Parse

/-!
# The forms of tokens

Every token that a text is scanned to is a symbol, a quoted text, a number with a sign or a
fraction, or a word (`Token.hasForm_of_scan`).  Two things follow from its form.  A token
that can name a field is a word, and a token by itself (`Token.HasForm.isWord`).  A quote
stands nowhere but at both ends of a quoted text (`Token.HasForm.eq_quoted`).
-/

namespace Rulebook

namespace Text.Lexicon

/-- Each of the lexemes that a text falls into is one at the start of some text. -/
theorem Cuts.exists_lexeme? {l : Lexicon} {text : List Char} {lexemes : List (List Char)}
    (h : l.Cuts text lexemes) : ∀ w ∈ lexemes, ∃ text, l.lexeme? text = some w := by
  induction h with
  | nil => exact fun _ hw => nomatch hw
  | separator _ _ ih => exact ih
  | lexeme _ hw _ ih => exact List.forall_mem_cons.2 ⟨⟨_, hw⟩, ih⟩

end Text.Lexicon

namespace Token

open Text

/-! ## Forms -/

/-- One digit or more. -/
def IsDigits (w : List Char) : Prop := w ≠ [] ∧ w.all isDigit = true

/-- The forms of tokens. -/
inductive HasForm : List Char → Prop where
  | symbol {w : List Char} : String.ofList w ∈ symbols → HasForm w
  | quoted {inner : List Char} : '\'' ∉ inner → HasForm ('\'' :: (inner ++ ['\'']))
  | signed {whole : List Char} : IsDigits whole → HasForm ('-' :: whole)
  | signedDecimal {whole fraction : List Char} :
      IsDigits whole → IsDigits fraction → HasForm ('-' :: (whole ++ '.' :: fraction))
  | decimal {whole fraction : List Char} :
      IsDigits whole → IsDigits fraction → HasForm (whole ++ '.' :: fraction)
  | word {w : List Char} : w ≠ [] → w.all isWordChar = true → HasForm w

theorem hasForm_of_doubleSymbol? {text w : List Char} (h : doubleSymbol? text = some w) :
    HasForm w := by
  unfold doubleSymbol? at h
  split at h <;> cases h <;> exact .symbol (by decide)

theorem hasForm_of_singleSymbol? {text w : List Char} (h : singleSymbol? text = some w) :
    HasForm w := by
  have hsymbols : ['(', ')', '=', '>', '<', '!'].all (String.ofList [·] ∈ symbols) = true := by
    decide
  cases text with
  | nil => cases h
  | cons c rest =>
      rw [singleSymbol?] at h
      split at h
      next hc =>
        cases h
        exact .symbol (of_decide_eq_true (List.all_eq_true.1 hsymbols c hc))
      next => cases h

theorem isDigits_of_digits? {text w : List Char} (h : digits? text = some w) : IsDigits w := by
  refine ⟨(isPrefix_digits? h).1, ?_⟩
  simp only [digits?] at h
  split at h
  next => cases h
  next =>
    cases h
    exact List.all_takeWhile

/-- Digits are taken whole where the text goes on with another character. -/
theorem digits?_run {digits rest : List Char} (h : IsDigits digits)
    (hrest : ∀ c ∈ rest.head?, isDigit c = false) : digits? (digits ++ rest) = some digits := by
  simp only [digits?, takeWhile_run h.2 hrest]
  exact if_neg fun hempty => h.1 (List.isEmpty_iff.1 hempty)

theorem exists_of_fraction?_eq_some {text w : List Char} (h : fraction? text = some w) :
    ∃ digits, IsDigits digits ∧ w = '.' :: digits := by
  unfold fraction? at h
  split at h
  next =>
    obtain ⟨digits, hdigits, rfl⟩ := Option.map_eq_some_iff.1 h
    exact ⟨digits, isDigits_of_digits? hdigits, rfl⟩
  next => cases h

theorem hasForm_of_signed? {text w : List Char} (h : signed? text = some w) : HasForm w := by
  unfold signed? at h
  split at h
  next rest =>
    obtain ⟨whole, hwhole, rfl⟩ := Option.map_eq_some_iff.1 h
    cases hfraction : fraction? (rest.drop whole.length) with
    | none =>
        rw [Option.getD_none, List.append_nil]
        exact .signed (isDigits_of_digits? hwhole)
    | some part =>
        obtain ⟨fraction, hdigits, rfl⟩ := exists_of_fraction?_eq_some hfraction
        exact .signedDecimal (isDigits_of_digits? hwhole) hdigits
  next => cases h

theorem hasForm_of_decimal? {text w : List Char} (h : decimal? text = some w) : HasForm w := by
  obtain ⟨whole, hwhole, hrest⟩ := Option.bind_eq_some_iff.1 h
  obtain ⟨part, hpart, rfl⟩ := Option.map_eq_some_iff.1 hrest
  obtain ⟨fraction, hfraction, rfl⟩ := exists_of_fraction?_eq_some hpart
  exact .decimal (isDigits_of_digits? hwhole) hfraction

theorem hasForm_of_word? {text w : List Char} (h : word? text = some w) : HasForm w := by
  refine .word (isPrefix_word? h).1 ?_
  simp only [word?] at h
  split at h
  next => cases h
  next =>
    cases h
    exact List.all_takeWhile

theorem hasForm_of_lexeme? {text w : List Char} (h : lexeme? text = some w) : HasForm w := by
  simp only [lexeme?, Option.orElse_eq_orElse, Option.orElse_eq_or, Option.or_eq_some_iff] at h
  rcases h with h | ⟨-, h | ⟨-, h | ⟨-, h | ⟨-, h | ⟨-, h⟩⟩⟩⟩⟩
  · exact hasForm_of_doubleSymbol? h
  · obtain ⟨inner, after, hinner, -, rfl⟩ := exists_of_quoted?_eq_some h
    exact .quoted hinner
  · exact hasForm_of_signed? h
  · exact hasForm_of_decimal? h
  · exact hasForm_of_singleSymbol? h
  · exact hasForm_of_word? h

/-- The tokens of a text have forms. -/
theorem hasForm_of_scan {text : String} {tokens : List Token} (h : scan text = .ok tokens) :
    ∀ token ∈ tokens, HasForm token.toList := by
  intro token htoken
  obtain ⟨rest, hlexeme⟩ :=
    (scan_eq_ok_iff.1 h).exists_lexeme? _ (List.mem_map_of_mem htoken)
  exact hasForm_of_lexeme? hlexeme

/-! ## Words that name fields -/

/-- A token is a word, and falls into no other tokens. -/
structure IsWord (token : Token) : Prop where
  /-- It is made of characters of words. -/
  all_isWordChar : token.toList.all isWordChar = true
  /-- As a text it is a single token. -/
  scan : scan token = .ok [token]

theorem IsWord.of_all {token : Token} (hne : token.toList ≠ [])
    (hall : token.toList.all isWordChar = true) : IsWord token :=
  ⟨hall, scan_eq_ok_iff.2 (cuts_word hne hall)⟩

/-- The first character of a name of fields starts names, and the others go on with them. -/
theorem exists_cons_of_isFieldName {token : Token} (h : isFieldName token = true) :
    ∃ c rest, token.toList = c :: rest ∧ isNameStart c = true ∧
      rest.all isNameChar = true := by
  unfold isFieldName at h
  split at h
  next => cases h
  next c rest htoken =>
    rw [Bool.and_eq_true, Bool.and_eq_true] at h
    exact ⟨c, rest, htoken, h.1.1, h.1.2⟩

/-- Of the tokens only words can name fields. -/
theorem HasForm.isWord {token : Token} (h : HasForm token.toList)
    (hname : isFieldName token = true) : IsWord token := by
  obtain ⟨c, rest, htoken, hstart, hrest⟩ := exists_cons_of_isFieldName hname
  generalize htext : token.toList = text at h
  cases h with
  | symbol hsymbol =>
      have hsymbols : symbols.any isFieldName = false := by decide +kernel
      rw [← htext, String.ofList_toList] at hsymbol
      exact absurd hname (List.any_eq_false.1 hsymbols _ hsymbol)
  | quoted _ =>
      obtain ⟨rfl, -⟩ := List.cons.inj (htext.symm.trans htoken)
      exact absurd hstart (by decide +kernel)
  | signed _ | signedDecimal _ _ =>
      obtain ⟨rfl, -⟩ := List.cons.inj (htext.symm.trans htoken)
      exact absurd hstart (by decide +kernel)
  | @decimal whole fraction hwhole _ =>
      have hpoint : '.' ∈ rest := by
        obtain ⟨d, whole, rfl⟩ := List.exists_cons_of_ne_nil hwhole.1
        obtain ⟨-, rfl⟩ := List.cons.inj (htoken.symm.trans htext)
        simp
      exact absurd (List.all_eq_true.1 hrest '.' hpoint) (by decide +kernel)
  | word hne hall => exact .of_all (htext ▸ hne) (htext ▸ hall)

/-! ## Quotes -/

theorem not_mem_of_isDigits {w : List Char} (h : IsDigits w) : '\'' ∉ w := fun hmem =>
  absurd (List.all_eq_true.1 h.2 _ hmem) (by decide)

/-- A token with a quote is a quoted text, and holds no other quotes. -/
theorem HasForm.eq_quoted {w : List Char} (h : HasForm w) (hquote : '\'' ∈ w) :
    ∃ inner, '\'' ∉ inner ∧ w = '\'' :: (inner ++ ['\'']) := by
  cases h with
  | symbol hsymbol =>
      have hsymbols : ∀ s ∈ symbols, '\'' ∉ s.toList := by decide
      exact absurd (by rwa [String.toList_ofList]) (hsymbols _ hsymbol)
  | quoted hinner => exact ⟨_, hinner, rfl⟩
  | signed hwhole => simp [not_mem_of_isDigits hwhole] at hquote
  | signedDecimal hwhole hfraction | decimal hwhole hfraction =>
      simp [not_mem_of_isDigits hwhole, not_mem_of_isDigits hfraction] at hquote
  | word _ hall => exact absurd (List.all_eq_true.1 hall _ hquote) (by decide)

end Token

end Rulebook
