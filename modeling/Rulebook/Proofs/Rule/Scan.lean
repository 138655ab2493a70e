import Rulebook.Proofs.Cache
import Rulebook.Proofs.Rule.Form

/-!
# What a scan takes from a text

A text is either cut into its tokens with nothing but white space between them
(`Token.Splits`), or the scan stops at the first character that no token can start with
(`Token.scan_cases`).

Two facts on single tokens carry this.  Which token a text starts with does not depend on what
follows this token (`Token.isLocal_lexeme?`), so the text before the place where a scan stops
is scanned by itself.  And no token starts a text exactly at a quote without a second one, a
minus sign without a digit, half of a symbol of two characters, or a character that stands in
no other token (`Token.lexeme?_eq_none_iff`).
-/

namespace Rulebook.Token

open Text

/-! ## Tokens do not depend on what follows them -/

theorem takeWhile_of_append {p : Char → Bool} {text rest run : List Char}
    (h : (text ++ rest).takeWhile p = run) (hlength : run.length ≤ text.length) :
    text.takeWhile p = run := by
  rw [List.takeWhile_append] at h
  split at h
  next hall =>
    rw [← h, List.length_append] at hlength
    have hnil : rest.takeWhile p = [] := List.eq_nil_of_length_eq_zero (by omega)
    rw [hnil, List.append_nil] at h
    rw [← h, (List.takeWhile_prefix p).eq_of_length hall]
  next => exact h

/-- A run of characters of one class. -/
theorem isLocal_run (p : Char → Bool) : IsLocal fun text =>
    if (text.takeWhile p).isEmpty then none else some (text.takeWhile p) where
  eq_none := by
    intro text rest h
    split at h
    next hempty =>
      rw [takeWhile_of_append (List.isEmpty_iff.1 hempty) (Nat.zero_le _)]
      rfl
    next => cases h
  eq_some := by
    intro text rest w h hw
    split at h
    next => cases h
    next hne =>
      cases h
      rw [takeWhile_of_append rfl hw, if_neg hne]

theorem isLocal_digits? : IsLocal digits? := isLocal_run isDigit

theorem isLocal_word? : IsLocal word? := isLocal_run isWordChar

/-- What takes something from a text takes at least its first character. -/
theorem isLocal_of_cons {take : List Char → Option (List Char)} (hnil : take [] = none)
    (hne : ∀ {text w}, take text = some w → w ≠ [] ∧ w <+: text)
    (hnone : ∀ {c text rest}, take (c :: (text ++ rest)) = none → take (c :: text) = none)
    (hsome : ∀ {c text rest w}, take (c :: (text ++ rest)) = some w →
      w.length ≤ text.length + 1 → take (c :: text) = some w) : IsLocal take where
  eq_none := by
    intro text rest h
    cases text with
    | nil => exact hnil
    | cons c text => exact hnone h
  eq_some := by
    intro text rest w h hw
    cases text with
    | nil => exact absurd (List.length_eq_zero_iff.1 (Nat.le_zero.1 hw)) (hne h).1
    | cons c text => exact hsome h hw

theorem isLocal_singleSymbol? : IsLocal singleSymbol? :=
  isLocal_of_cons rfl isPrefix_singleSymbol? id fun h _ => h

theorem isLocal_doubleSymbol? : IsLocal doubleSymbol? := by
  refine isLocal_of_cons rfl isPrefix_doubleSymbol? ?_ ?_
  · intro c text rest h
    cases text with
    | nil => exact doubleSymbol?_singleton c
    | cons d text =>
        rw [List.cons_append, doubleSymbol?_cons_cons] at h
        rwa [doubleSymbol?_cons_cons]
  · intro c text rest w h hw
    cases text with
    | nil =>
        have hlength : w.length = 2 := by
          unfold doubleSymbol? at h
          split at h <;> cases h <;> rfl
        rw [hlength] at hw
        cases hw with
        | step hlt => cases hlt
    | cons d text =>
        rw [List.cons_append, doubleSymbol?_cons_cons] at h
        rwa [doubleSymbol?_cons_cons]

theorem isLocal_quoted? : IsLocal quoted? where
  eq_none := by
    intro text rest h
    rw [Option.eq_none_iff_forall_ne_some]
    intro w hw
    obtain ⟨inner, after, hinner, rfl, -⟩ := exists_of_quoted?_eq_some hw
    have hlonger := quoted?_run hinner (after ++ rest)
    simp only [List.cons_append, List.append_assoc] at h
    rw [hlonger] at h
    cases h
  eq_some := by
    intro text rest w h hw
    have hstart : w <+: text :=
      List.prefix_of_prefix_length_le (isPrefix_quoted? h).2 (List.prefix_append text rest) hw
    obtain ⟨inner, after, hinner, -, rfl⟩ := exists_of_quoted?_eq_some h
    obtain ⟨between, rfl⟩ := hstart
    simpa using quoted?_run hinner between

theorem isLocal_fraction? : IsLocal fraction? := by
  refine isLocal_of_cons rfl isPrefix_fraction? ?_ ?_
  · intro c text rest h
    by_cases hpoint : c = '.'
    · subst hpoint
      rw [fraction?, Option.map_eq_none_iff] at h
      rw [fraction?, isLocal_digits?.eq_none h]
      rfl
    · exact fraction?_of_ne hpoint text
  · intro c text rest w h hw
    by_cases hpoint : c = '.'
    · subst hpoint
      obtain ⟨digits, hdigits, rfl⟩ := Option.map_eq_some_iff.1 h
      rw [fraction?, isLocal_digits?.eq_some hdigits (Nat.le_of_succ_le_succ hw)]
      rfl
    · rw [fraction?_of_ne hpoint] at h
      cases h

theorem isLocal_signed? : IsLocal signed? := by
  refine isLocal_of_cons rfl isPrefix_signed? ?_ ?_
  · intro c text rest h
    by_cases hminus : c = '-'
    · subst hminus
      rw [signed?, Option.map_eq_none_iff] at h
      rw [signed?, isLocal_digits?.eq_none h]
      rfl
    · exact signed?_of_ne hminus text
  · intro c text rest w h hw
    by_cases hminus : c = '-'
    · subst hminus
      obtain ⟨digits, hdigits, rfl⟩ := Option.map_eq_some_iff.1 h
      simp only [List.length_cons, List.cons_append, List.length_append] at hw
      have hlength : digits.length ≤ text.length := by omega
      rw [List.drop_append_of_le_length hlength] at hw ⊢
      rw [signed?, isLocal_digits?.eq_some hdigits hlength, Option.map_some]
      cases hfraction : fraction? (text.drop digits.length ++ rest) with
      | none => rw [isLocal_fraction?.eq_none hfraction]
      | some part =>
          rw [hfraction, Option.getD_some] at hw
          have hpart : part.length ≤ (text.drop digits.length).length := by
            rw [List.length_drop]
            omega
          rw [isLocal_fraction?.eq_some hfraction hpart]
    · rw [signed?_of_ne hminus] at h
      cases h

/-- Digits before a point end there, whatever follows. -/
theorem digits?_append_of_fraction? {text digits part : List Char}
    (hdigits : digits? text = some digits) (hpart : fraction? (text.drop digits.length) = some part)
    (rest : List Char) : digits? (text ++ rest) = some digits := by
  obtain ⟨tail, rfl⟩ := (isPrefix_digits? hdigits).2
  rw [List.drop_left] at hpart
  rw [List.append_assoc]
  refine digits?_run (isDigits_of_digits? hdigits) ?_
  obtain ⟨fraction, -, rfl⟩ := exists_of_fraction?_eq_some hpart
  obtain ⟨after, rfl⟩ := (isPrefix_fraction? hpart).2
  intro c hc
  cases hc
  decide

theorem isLocal_decimal? : IsLocal decimal? where
  eq_none := by
    intro text rest h
    rw [Option.eq_none_iff_forall_ne_some]
    intro w hw
    obtain ⟨digits, hdigits, hrest⟩ := Option.bind_eq_some_iff.1 hw
    obtain ⟨part, hpart, -⟩ := Option.map_eq_some_iff.1 hrest
    have hlength : digits.length ≤ text.length := (isPrefix_digits? hdigits).2.length_le
    rw [decimal?, digits?_append_of_fraction? hdigits hpart, Option.bind_some,
      List.drop_append_of_le_length hlength, Option.map_eq_none_iff] at h
    rw [isLocal_fraction?.eq_none h] at hpart
    cases hpart
  eq_some := by
    intro text rest w h hw
    obtain ⟨digits, hdigits, hrest⟩ := Option.bind_eq_some_iff.1 h
    obtain ⟨part, hpart, rfl⟩ := Option.map_eq_some_iff.1 hrest
    rw [List.length_append] at hw
    have hlength : digits.length ≤ text.length := by omega
    rw [List.drop_append_of_le_length hlength] at hpart
    have hfits : part.length ≤ (text.drop digits.length).length := by
      rw [List.length_drop]
      omega
    rw [decimal?, isLocal_digits?.eq_some hdigits hlength, Option.bind_some,
      isLocal_fraction?.eq_some hpart hfits, Option.map_some]

theorem isLocal_lexeme? : IsLocal lexeme? := by
  have hlexeme : lexeme? = fun text => (doubleSymbol? text).or ((quoted? text).or
      ((signed? text).or ((decimal? text).or ((singleSymbol? text).or (word? text))))) := by
    funext text
    simp only [lexeme?, Option.orElse_eq_orElse, Option.orElse_eq_or]
  rw [hlexeme]
  exact isLocal_doubleSymbol?.or (isLocal_quoted?.or (isLocal_signed?.or
    (isLocal_decimal?.or (isLocal_singleSymbol?.or isLocal_word?))))

/-! ## Words end where no character of words follows -/

/-- A token without marks has been taken as a word. -/
theorem word?_of_lexeme? {text w : List Char} (h : lexeme? text = some w)
    (hall : w.all isWordChar = true) : word? text = some w := by
  have hmarked : ∀ c ∈ w, c ∉ marks := fun c hc =>
    not_mark_of_isWordChar (List.all_eq_true.1 hall c hc)
  simp only [lexeme?, Option.orElse_eq_orElse, Option.orElse_eq_or, Option.or_eq_some_iff] at h
  rcases h with h | ⟨-, h | ⟨-, h | ⟨-, h | ⟨-, h | ⟨-, h⟩⟩⟩⟩⟩
  · unfold doubleSymbol? at h
    split at h <;> cases h <;> exact absurd (by decide) (hmarked _ (.head _))
  · obtain ⟨inner, after, -, -, rfl⟩ := exists_of_quoted?_eq_some h
    exact absurd (by decide) (hmarked '\'' (.head _))
  · unfold signed? at h
    split at h
    next =>
      obtain ⟨digits, -, rfl⟩ := Option.map_eq_some_iff.1 h
      exact absurd (by decide) (hmarked '-' (.head _))
    next => cases h
  · obtain ⟨digits, -, hrest⟩ := Option.bind_eq_some_iff.1 h
    obtain ⟨part, hpart, rfl⟩ := Option.map_eq_some_iff.1 hrest
    obtain ⟨fraction, -, rfl⟩ := exists_of_fraction?_eq_some hpart
    exact absurd (by decide) (hmarked '.' (by simp))
  · have hsymbols : ∀ c ∈ ['(', ')', '=', '>', '<', '!'], c ∈ marks := by simp [marks]
    unfold singleSymbol? at h
    split at h
    next =>
      split at h
      next hc =>
        cases h
        exact absurd (hsymbols _ hc) (hmarked _ (.head _))
      next => cases h
    next => cases h
  · exact h

/-- A word ends before what follows it. -/
theorem head_of_word? {w rest : List Char} (h : word? (w ++ rest) = some w) :
    ∀ c ∈ rest.head?, isWordChar c = false := by
  simp only [word?] at h
  split at h
  next => cases h
  next =>
    have hrest : rest = (w ++ rest).dropWhile isWordChar := by
      have hwhole := List.takeWhile_append_dropWhile (p := isWordChar) (l := w ++ rest)
      rw [Option.some.inj h] at hwhole
      exact (List.append_cancel_left hwhole).symm
    intro c hc
    have hhead := List.head?_dropWhile_not isWordChar (w ++ rest)
    rw [← hrest, hc] at hhead
    exact hhead

/-! ## Texts without a token at their start -/

/-- No token starts with this character, where the text goes on with `rest`. -/
inductive StartsNone : Char → List Char → Prop where
  | quote {rest : List Char} : '\'' ∉ rest → StartsNone '\'' rest
  | minus {rest : List Char} : (∀ d ∈ rest.head?, isDigit d = false) → StartsNone '-' rest
  | ampersand {rest : List Char} : rest.head? ≠ some '&' → StartsNone '&' rest
  | bar {rest : List Char} : rest.head? ≠ some '|' → StartsNone '|' rest
  | other {c : Char} {rest : List Char} :
      c ∉ ['\'', '-', '&', '|', '(', ')', '=', '>', '<', '!'] → isWordChar c = false →
      StartsNone c rest

theorem digits?_eq_none_iff {text : List Char} :
    digits? text = none ↔ ∀ d ∈ text.head?, isDigit d = false := by
  cases text with
  | nil => simp [digits?]
  | cons d rest => cases hd : isDigit d <;> simp [digits?, hd]

theorem StartsNone.isWordChar {c : Char} {rest : List Char} (h : StartsNone c rest) :
    isWordChar c = false := by
  cases h with
  | other _ hword => exact hword
  | _ => decide

theorem StartsNone.singleSymbol? {c : Char} {rest : List Char} (h : StartsNone c rest) :
    singleSymbol? (c :: rest) = none := by
  cases h with
  | other hc _ =>
      simp only [List.mem_cons, not_or] at hc
      simp [Token.singleSymbol?, hc]
  | _ => rfl

theorem lexeme?_eq_none_iff {c : Char} {rest : List Char} :
    lexeme? (c :: rest) = none ↔ StartsNone c rest := by
  constructor
  · intro h
    simp only [lexeme?, Option.orElse_eq_orElse, Option.orElse_eq_or, Option.or_eq_none_iff] at h
    obtain ⟨hdouble, hquoted, hsigned, -, hsingle, hword⟩ := h
    by_cases hquote : c = '\''
    · subst hquote
      refine .quote fun hmem => ?_
      simp [quoted?, hmem] at hquoted
    by_cases hminus : c = '-'
    · subst hminus
      rw [signed?, Option.map_eq_none_iff] at hsigned
      exact .minus (digits?_eq_none_iff.1 hsigned)
    by_cases hampersand : c = '&'
    · subst hampersand
      refine .ampersand fun hhead => ?_
      obtain ⟨tail, rfl⟩ := List.head?_eq_some_iff.1 hhead
      cases hdouble
    by_cases hbar : c = '|'
    · subst hbar
      refine .bar fun hhead => ?_
      obtain ⟨tail, rfl⟩ := List.head?_eq_some_iff.1 hhead
      cases hdouble
    refine .other ?_ ?_
    · intro hmem
      simp only [List.mem_cons, hquote, hminus, hampersand, hbar, false_or] at hmem
      rw [singleSymbol?, if_pos (by simpa using hmem)] at hsingle
      cases hsingle
    · rw [Bool.eq_false_iff]
      intro hc
      simp [word?, hc] at hword
  · intro h
    have hword : word? (c :: rest) = none := by
      simp [word?, h.isWordChar]
    have hdecimal : decimal? (c :: rest) = none := by
      have hdigits : digits? (c :: rest) = none := by
        simp [digits?, isDigit_eq_false h.isWordChar]
      rw [decimal?, hdigits]
      rfl
    have hsingle := h.singleSymbol?
    simp only [lexeme?, Option.orElse_eq_orElse, Option.orElse_eq_or, Option.or_eq_none_iff]
    cases h with
    | quote hrest =>
        have hquoted : quoted? ('\'' :: rest) = none := by simpa [quoted?] using hrest
        exact ⟨doubleSymbol?_of_not_mem (by simp) rest, hquoted, signed?_of_ne (by simp) rest,
          hdecimal, hsingle, hword⟩
    | minus hrest =>
        have hsigned : signed? ('-' :: rest) = none := by
          rw [signed?, digits?_eq_none_iff.2 hrest]
          rfl
        exact ⟨doubleSymbol?_of_not_mem (by simp) rest, quoted?_of_ne (by simp) rest, hsigned,
          hdecimal, hsingle, hword⟩
    | ampersand hrest | bar hrest =>
        refine ⟨?_, quoted?_of_ne (by simp) rest, signed?_of_ne (by simp) rest, hdecimal, hsingle,
          hword⟩
        cases rest with
        | nil => exact doubleSymbol?_singleton _
        | cons d rest =>
            rw [doubleSymbol?_cons_cons]
            simpa using hrest
    | other hc _ =>
        simp only [List.mem_cons, not_or] at hc
        exact ⟨doubleSymbol?_of_not_mem (by simp [hc]) rest, quoted?_of_ne hc.1 rest,
          signed?_of_ne hc.2.1 rest, hdecimal, hsingle, hword⟩

/-! ## Scans -/

/-- A text is made of tokens, with white space between them, before them and after them.  No
character of words follows a word. -/
inductive Splits : List Char → List Token → Prop where
  | blank {blanks : List Char} : blanks.all isBlank = true → Splits blanks []
  | token {blanks rest : List Char} {token : Token} {tokens : List Token} :
      blanks.all isBlank = true → HasForm token.toList →
      (token.toList.all isWordChar = true → ∀ c ∈ rest.head?, isWordChar c = false) →
      Splits rest tokens → Splits (blanks ++ (token.toList ++ rest)) (token :: tokens)

theorem Splits.cons {c : Char} {text : List Char} {tokens : List Token} (hc : isBlank c = true)
    (h : Splits text tokens) : Splits (c :: text) tokens := by
  cases h with
  | blank hblanks => exact .blank (by rw [List.all_cons, hc, hblanks]; rfl)
  | token hblanks hform hword hrest =>
      rw [← List.cons_append]
      exact .token (by rw [List.all_cons, hc, hblanks]; rfl) hform hword hrest

theorem splits_of_cuts {text : List Char} {lexemes : List (List Char)}
    (h : lexicon.Cuts text lexemes) : Splits text (lexemes.map String.ofList) := by
  induction h with
  | nil => exact .blank rfl
  | separator hc _ ih => exact ih.cons hc
  | @lexeme c w rest lexemes hc hw hrest ih =>
      replace hw : lexeme? ((c :: w) ++ rest) = some (c :: w) := hw
      have hsplits := @Splits.token [] rest (String.ofList (c :: w)) (lexemes.map String.ofList) rfl
      rw [String.toList_ofList] at hsplits
      refine hsplits (hasForm_of_lexeme? hw) (fun hall => ?_) ih
      exact head_of_word? (word?_of_lexeme? hw hall)

/-- A text is cut into tokens and white space, or the scan stops, so many bytes into the text
as the part before takes, at the first character that is no white space and starts no token.
There are no tokens exactly in a text that is all white space. -/
theorem scan_cases (text : String) :
    ((∃ tokens, scan text = .ok tokens ∧ Splits text.toList tokens) ∨
      ∃ before c after tokens, text.toList = before ++ c :: after ∧
        scan text = .error (.unrecognized (String.ofList before).utf8ByteSize c) ∧
        isBlank c = false ∧ StartsNone c after ∧ scan (String.ofList before) = .ok tokens) ∧
    (scan text = .ok [] ↔ isBlankText text = true) := by
  refine ⟨?_, scan_eq_nil_iff text⟩
  cases hcut : lexicon.cut text.toList with
  | ok lexemes =>
      have hcuts := (Lexicon.cut_eq_ok_iff isProper_lexicon).1 hcut
      exact .inl ⟨_, by rw [scan, hcut], splits_of_cuts hcuts⟩
  | error uncut =>
      obtain ⟨before, after, lexemes, htext, hoffset, hchar, hnone, hcuts⟩ :=
        Lexicon.exists_of_cut_eq_error isProper_lexicon isLocal_lexeme? hcut
      refine .inr ⟨before, uncut.char, after, lexemes.map String.ofList, htext, ?_, hchar,
        lexeme?_eq_none_iff.1 hnone, ?_⟩
      · rw [scan, hcut, utf8ByteSize_ofList, ← hoffset]
      · rw [scan_eq_ok_iff, String.toList_ofList]
        simpa [Function.comp_def] using hcuts

end Rulebook.Token
