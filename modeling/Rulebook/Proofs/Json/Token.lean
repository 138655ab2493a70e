import Mathlib.Data.List.Chain
import Rulebook.Proofs.Json.Text
import Rulebook.Proofs.Numeral
import Rulebook.Proofs.Text.Cuts

/-!
# Tokens are read back as they are written

Numerals and the units of strings can be written in several ways (`Token.Spells`).  A token is
found at the start of a text, if it is a mark or a mark or a blank follows
(`Token.Spells.lexeme?`).  So tokens of which no two others than marks stand side by side are
read back, whatever blanks stand between them (`Token.SpellAll.scan?`).
-/

namespace Rulebook.Json.Token

/-- The marks that stand between the parts of a document. -/
def isMark : Token → Bool
  | openBrace | closeBrace | openBracket | closeBracket | comma | colon => true
  | _ => false

/-- The characters of the marks. -/
def markChars : List Char := ['{', '}', '[', ']', ',', ':']

/-- A token can be written: a numeral is one of JSON, and halves of characters are
proper. -/
def IsWritable : Token → Prop
  | number n => n.IsJson
  | string units => ∀ u ∈ units, u.IsProper
  | _ => True

theorem text_of_isMark {t : Token} (h : t.isMark = true) :
    ∃ c ∈ markChars, t.text = [c] := by
  cases t <;> simp [isMark, markChars, text] at h ⊢

theorem isSeparator_of_mem_markChars {c : Char} (h : c ∈ markChars) :
    lexicon.isSeparator c = false := by
  simp only [markChars, List.mem_cons, List.not_mem_nil, or_false] at h
  rcases h with rfl | rfl | rfl | rfl | rfl | rfl <;> decide

/-- A mark or a blank ends the token before it. -/
def Ends (c : Char) : Prop := c ∈ markChars ∨ lexicon.isSeparator c = true

theorem Ends.classes {c : Char} (h : Ends c) : isNumeralChar c = false ∧ c.isLower = false := by
  simp only [Ends, markChars, lexicon, List.mem_cons, List.not_mem_nil, or_false, Bool.or_eq_true,
    beq_iff_eq] at h
  rcases h with (rfl | rfl | rfl | rfl | rfl | rfl) | (((rfl | rfl) | rfl) | rfl) <;> decide

theorem lexeme?_of_not_mark {c : Char} (hmark : c ∉ markChars) (hquote : c ≠ '"')
    (rest : List Char) : lexeme? (c :: rest) =
      if c = '-' ∨ c.isDigit then some (c :: rest.takeWhile isNumeralChar)
      else if c.isLower then some (c :: rest.takeWhile Char.isLower)
      else none :=
  (if_neg hmark).trans (if_neg hquote)

/-! ## Numerals -/

theorem isNumeralChar_of_isDigit {c : Char} (h : c.isDigit = true) :
    isNumeralChar c = true := by
  simp [isNumeralChar, h]

theorem all_isNumeralChar_of_all_isDigit {text : List Char}
    (h : text.all Char.isDigit = true) : text.all isNumeralChar = true :=
  List.all_eq_true.2 fun c hc => isNumeralChar_of_isDigit (List.all_eq_true.1 h c hc)

theorem all_isNumeralChar_exponent {e : Exponent} (h : Numeral.isDigits e.digits = true) :
    e.text.all isNumeralChar = true := by
  obtain ⟨sign, digits⟩ := e
  rw [Numeral.isDigits, Bool.and_eq_true] at h
  have hdigits := all_isNumeralChar_of_all_isDigit h.2
  rw [Exponent.text, List.cons_append, List.all_cons, List.all_append, hdigits]
  cases sign with
  | none => rfl
  | some sign => cases sign <;> rfl

theorem all_isNumeralChar_text {n : Numeral} (h : n.IsJson) :
    n.text.all isNumeralChar = true := by
  obtain ⟨negative, whole, fraction, exponent⟩ := n
  obtain ⟨hwhole, -, hfraction, hexponent⟩ := h
  have hsign : (if negative then ['-'] else []).all isNumeralChar = true := by
    cases negative <;> rfl
  have hpoint : (if fraction.isEmpty then [] else '.' :: fraction).all isNumeralChar = true := by
    split
    next => rfl
    next =>
      rw [List.all_cons, all_isNumeralChar_of_all_isDigit hfraction]
      rfl
  have htail : ((exponent.map Exponent.text).getD []).all isNumeralChar = true := by
    cases exponent with
    | none => rfl
    | some e => exact all_isNumeralChar_exponent (hexponent e rfl)
  simp only [Numeral.text, List.all_append, hsign, hpoint, htail,
    all_isNumeralChar_of_all_isDigit hwhole, Bool.and_self]

/-- No mark and no letter but those of numerals starts one. -/
theorem not_mark_of_numeral_head {c : Char} (h : c = '-' ∨ c.isDigit = true) :
    c ∉ markChars ∧ c ≠ '"' ∧ c ≠ 'n' ∧ c ≠ 't' ∧ c ≠ 'f' := by
  have hne (d : Char) (hminus : d ≠ '-') (hdigit : d.isDigit = false) : c ≠ d := by
    rcases h with rfl | hc
    · exact hminus.symm
    · exact Numeral.ne_of_isDigit hc hdigit
  refine ⟨?_, hne _ (by decide) rfl, hne _ (by decide) rfl, hne _ (by decide) rfl,
    hne _ (by decide) rfl⟩
  intro hmark
  simp only [markChars, List.mem_cons, List.not_mem_nil, or_false] at hmark
  rcases hmark with rfl | rfl | rfl | rfl | rfl | rfl <;> exact hne _ (by decide) rfl rfl

theorem lexeme?_numeral {n : Numeral} (h : n.IsJson) {rest : List Char}
    (hrest : ∀ c ∈ rest.head?, Ends c) :
    ∃ c w, n.text = c :: w ∧ lexicon.isSeparator c = false ∧
      lexeme? (c :: (w ++ rest)) = some (c :: w) := by
  obtain ⟨c, w, htext, hc⟩ := h.text_eq_cons
  obtain ⟨hmark, hquote, -⟩ := not_mark_of_numeral_head hc
  have hall := all_isNumeralChar_text h
  rw [htext, List.all_cons, Bool.and_eq_true] at hall
  have hhead : ∀ d ∈ rest.head?, isNumeralChar d = false := fun d hd =>
    (hrest d hd).classes.1
  refine ⟨c, w, htext, ?_, ?_⟩
  · rcases hc with rfl | hdigit
    · rfl
    · have hne (d : Char) (hd : d.isDigit = false) : (c == d) = false :=
        beq_eq_false_iff_ne.2 (Numeral.ne_of_isDigit hdigit hd)
      simp only [lexicon, hne _ (rfl : ' '.isDigit = false), hne _ (rfl : '\t'.isDigit = false),
        hne _ (rfl : '\n'.isDigit = false), hne _ (rfl : '\r'.isDigit = false), Bool.or_self]
  · rw [lexeme?_of_not_mark hmark hquote, if_pos hc, Text.takeWhile_run hall.2 hhead]

theorem ofLexeme?_numeral {n : Numeral} (h : n.IsJson) :
    ofLexeme? n.text = some (.number n) := by
  obtain ⟨c, w, htext, hc⟩ := h.text_eq_cons
  obtain ⟨hmark, hquote, hn, ht, hf⟩ := not_mark_of_numeral_head hc
  have hread := Numeral.ofJson?_text h
  rw [htext] at hread ⊢
  simp only [markChars, List.mem_cons, List.not_mem_nil, or_false, not_or] at hmark
  simp [ofLexeme?, hmark, hquote, hn, ht, hf, hread]

/-! ## Tokens -/

theorem lexeme?_word {c : Char} {w rest : List Char}
    (hc : c ∉ markChars ∧ c ≠ '"' ∧ ¬ (c = '-' ∨ c.isDigit = true))
    (hw : (c :: w).all Char.isLower = true) (hrest : ∀ c ∈ rest.head?, Ends c) :
    lexeme? (c :: (w ++ rest)) = some (c :: w) := by
  obtain ⟨hmark, hquote, hnumeral⟩ := hc
  have hhead : ∀ d ∈ rest.head?, d.isLower = false := fun d hd =>
    (hrest d hd).classes.2
  rw [List.all_cons, Bool.and_eq_true] at hw
  rw [lexeme?_of_not_mark hmark hquote, if_neg hnumeral, if_pos hw.1,
    Text.takeWhile_run hw.2 hhead]

/-- The ways to write a token. -/
inductive Spells : Token → List Char → Prop where
  | mark {t : Token} : t.isMark = true → Spells t t.text
  | null : Spells .null ['n', 'u', 'l', 'l']
  | bool (b : Bool) : Spells (.bool b) (text (.bool b))
  | number {n : Numeral} : n.IsJson → Spells (.number n) n.text
  | string {units : List TextUnit} {w : List Char} :
      TextUnit.SpellAll units w → Spells (.string units) ('"' :: (w ++ ['"']))

theorem spells_text {t : Token} (h : t.IsWritable) : t.Spells t.text := by
  cases t with
  | null => exact .null
  | bool b => exact .bool b
  | number n => exact .number h
  | string units => exact .string (TextUnit.spellAll_flatMap_text h)
  | _ => exact .mark rfl

/-- A token is found at the start of a text, if it is a mark or what follows ends it. -/
theorem Spells.lexeme? {t : Token} {text : List Char} (h : t.Spells text) {rest : List Char}
    (hrest : t.isMark = true ∨ ∀ c ∈ rest.head?, Ends c) :
    ∃ c w, text = c :: w ∧ lexicon.isSeparator c = false ∧
      Token.lexeme? (c :: (w ++ rest)) = some (c :: w) := by
  cases h with
  | mark hmark =>
      obtain ⟨c, hc, htext⟩ := text_of_isMark hmark
      exact ⟨c, [], htext, isSeparator_of_mem_markChars hc, if_pos hc⟩
  | null =>
      have hhead := hrest.resolve_left Bool.false_ne_true
      exact ⟨'n', ['u', 'l', 'l'], rfl, rfl, lexeme?_word (by decide) rfl hhead⟩
  | bool b =>
      have hhead := hrest.resolve_left Bool.false_ne_true
      cases b with
      | true => exact ⟨'t', ['r', 'u', 'e'], rfl, rfl, lexeme?_word (by decide) rfl hhead⟩
      | false =>
          exact ⟨'f', ['a', 'l', 's', 'e'], rfl, rfl, lexeme?_word (by decide) rfl hhead⟩
  | number hn => exact lexeme?_numeral hn (hrest.resolve_left Bool.false_ne_true)
  | @string units w hunits =>
      refine ⟨'"', w ++ ['"'], rfl, rfl, ?_⟩
      rw [List.append_assoc, Token.lexeme?, if_neg (by decide), if_pos rfl]
      exact congrArg (Option.map ('"' :: ·)) (hunits.closing? rest)

theorem Spells.ofLexeme? {t : Token} {text : List Char} (h : t.Spells text) :
    Token.ofLexeme? text = some t := by
  cases h with
  | mark hmark => cases t <;> first | rfl | cases hmark
  | null => rfl
  | bool b => cases b <;> rfl
  | number hn => exact ofLexeme?_numeral hn
  | @string units w hunits =>
      have hread : Token.ofLexeme? ('"' :: (w ++ ['"'])) =
          (TextUnit.ofChars? (w ++ ['"']).dropLast).map Token.string := rfl
      rw [hread, List.dropLast_concat, hunits.ofChars?, Option.map_some]

/-! ## Texts -/

/-- The ways to write tokens one after the other, with blanks anywhere between them. -/
inductive SpellAll : List Token → List Char → Prop where
  | nil : SpellAll [] []
  | separator {c : Char} {tokens : List Token} {text : List Char} :
      lexicon.isSeparator c = true → SpellAll tokens text → SpellAll tokens (c :: text)
  | token {t : Token} {tokens : List Token} {w text : List Char} :
      t.Spells w → SpellAll tokens text → SpellAll (t :: tokens) (w ++ text)

theorem spellAll_flatMap_text {tokens : List Token} (h : ∀ t ∈ tokens, t.IsWritable) :
    SpellAll tokens (tokens.flatMap text) := by
  induction tokens with
  | nil => exact .nil
  | cons t rest ih =>
      rw [List.flatMap_cons]
      exact .token (spells_text (h t (.head _))) (ih fun u hu => h u (.tail t hu))

/-- One of two tokens is a mark, so that they can stand side by side. -/
def Parts (t u : Token) : Prop := t.isMark = true ∨ u.isMark = true

/-- A text that has no token, or a mark as its first token, ends what stands before it. -/
theorem SpellAll.ends_head {tokens : List Token} {text : List Char} (h : SpellAll tokens text)
    (hmark : ∀ t ∈ tokens.head?, t.isMark = true) : ∀ c ∈ text.head?, Ends c := by
  intro c hc
  cases h with
  | nil => cases hc
  | separator hseparator _ =>
      cases hc
      exact .inr hseparator
  | @token t tokens w text hw _ =>
      have ht := hmark t rfl
      cases hw with
      | mark _ =>
          obtain ⟨d, hd, htext⟩ := text_of_isMark ht
          rw [htext] at hc
          cases hc
          exact .inl hd
      | _ => cases ht

/-- The text of tokens holds what each of them is written as. -/
theorem SpellAll.exists_subset {tokens : List Token} {text : List Char}
    (h : SpellAll tokens text) : ∀ t ∈ tokens, ∃ w, t.Spells w ∧ w ⊆ text := by
  induction h with
  | nil => exact fun _ ht => nomatch ht
  | separator _ _ ih =>
      intro t ht
      obtain ⟨w, hw, hsub⟩ := ih t ht
      exact ⟨w, hw, List.subset_cons_of_subset _ hsub⟩
  | @token u tokens v text hv _ ih =>
      refine List.forall_mem_cons.2 ⟨⟨v, hv, List.subset_append_left v text⟩, fun t ht => ?_⟩
      obtain ⟨w, hw, hsub⟩ := ih t ht
      exact ⟨w, hw, List.subset_append_of_subset_right v hsub⟩

/-- A text falls into the lexemes of its tokens, if no two others than marks stand side by
side. -/
theorem SpellAll.exists_cuts {tokens : List Token} {text : List Char} (h : SpellAll tokens text)
    (hparts : tokens.IsChain Parts) :
    ∃ lexemes, lexicon.Cuts text lexemes ∧ ofLexemes? lexemes = some tokens := by
  induction h with
  | nil => exact ⟨[], .nil, rfl⟩
  | separator hseparator _ ih =>
      obtain ⟨lexemes, hcuts, hread⟩ := ih hparts
      exact ⟨lexemes, .separator hseparator hcuts, hread⟩
  | @token t tokens w text hw htext ih =>
      obtain ⟨hnext, hchain⟩ := List.isChain_cons.1 hparts
      obtain ⟨lexemes, hcuts, hread⟩ := ih hchain
      -- Behind a token other than a mark stands a mark, a blank or nothing.
      have hrest : t.isMark = true ∨ ∀ c ∈ text.head?, Ends c := by
        by_cases ht : t.isMark = true
        · exact .inl ht
        · exact .inr (htext.ends_head fun u hu => (hnext u hu).resolve_left ht)
      obtain ⟨c, tail, rfl, hseparator, hlexeme⟩ := hw.lexeme? hrest
      refine ⟨(c :: tail) :: lexemes, .lexeme hseparator hlexeme hcuts, ?_⟩
      rw [ofLexemes?, hw.ofLexeme?, hread]
      rfl

/-- Tokens are read back whatever way they are written, if no two others than marks stand side
by side. -/
theorem SpellAll.scan? {tokens : List Token} {text : List Char} (h : SpellAll tokens text)
    (hparts : tokens.IsChain Parts) : Token.scan? text = some tokens := by
  obtain ⟨lexemes, hcuts, hread⟩ := h.exists_cuts hparts
  rw [Token.scan?, Text.Lexicon.cut, hcuts.cutFrom 0]
  exact hread

end Rulebook.Json.Token
