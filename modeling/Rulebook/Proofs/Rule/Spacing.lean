import Mathlib.Control.Monad.Basic
import Rulebook.Proofs.Rule.Scan
import Rulebook.Rule.Parse

/-!
# Spacing

White space between tokens does not matter.  A token that a text is scanned to is also a token
by itself, since it does not depend on what follows it (`Text.Lexicon.Cuts.alone`), and white
space goes on with no token.  So the tokens of a text, written with any white space between them,
are scanned to themselves (`Token.Spaced.cuts`), and the new text is read as the old one
(`Token.parse_of_spaced`).
-/

namespace Rulebook

namespace Text.Lexicon

/-- Each of the lexemes that a text falls into is, as a text, this one lexeme. -/
theorem Cuts.alone {l : Lexicon} (hlocal : IsLocal l.lexeme?) {text : List Char}
    {lexemes : List (List Char)} (h : l.Cuts text lexemes) : ∀ w ∈ lexemes, l.Cuts w [w] := by
  induction h with
  | nil => exact fun _ hw => nomatch hw
  | separator _ _ ih => exact ih
  | @lexeme c w rest lexemes hc hw _ ih =>
      rw [← List.cons_append] at hw
      exact List.forall_mem_cons.2 ⟨.single hc (hlocal.eq_some hw (Nat.le_refl _)), ih⟩

/-- Separators before a text add no lexemes. -/
theorem Cuts.separators {l : Lexicon} {gap text : List Char} {lexemes : List (List Char)}
    (hgap : gap.all l.isSeparator = true) (h : l.Cuts text lexemes) :
    l.Cuts (gap ++ text) lexemes := by
  induction gap with
  | nil => exact h
  | cons c gap ih =>
      rw [List.all_cons, Bool.and_eq_true] at hgap
      exact .separator hgap.1 (ih hgap.2)

end Text.Lexicon

namespace Token

open Text

/-- A text that is made of tokens, in order, and of white space: any before the first one and
after the last one, and at least one character between two neighbours. -/
inductive Spaced : List Token → List Char → Prop where
  | none {gap : List Char} : gap.all isBlank = true → Spaced [] gap
  | last {before after : List Char} {token : Token} :
      before.all isBlank = true → after.all isBlank = true →
      Spaced [token] (before ++ (token.toList ++ after))
  | next {before rest : List Char} {c : Char} {token other : Token} {tokens : List Token} :
      before.all isBlank = true → isBlank c = true → Spaced (other :: tokens) rest →
      Spaced (token :: other :: tokens) (before ++ (token.toList ++ c :: rest))

theorem isBoundary_of_isBlank {c : Char} (h : isBlank c = true) : isBoundary c = true := by
  have hmarks : ['.', '=', '>', '&', '|'].any isBlank = false := by decide
  have hnot : c ∉ ['.', '=', '>', '&', '|'] := fun hmem => List.any_eq_false.1 hmarks c hmem h
  rw [isBoundary, isWordChar_of_isBlank h]
  simpa using hnot

/-- White space, and what follows it, changes no token before it. -/
theorem endsBefore_of_isBlank {rest : List Char} (h : ∀ c ∈ rest.head?, isBlank c = true) :
    lexicon.EndsBefore rest :=
  endsBefore_of_boundary fun c hc => isBoundary_of_isBlank (h c hc)

/-- Tokens that are so by themselves are those of every text that spaces them. -/
theorem Spaced.cuts {tokens : List Token} {text : List Char} (h : Spaced tokens text)
    (halone : ∀ w ∈ tokens.map String.toList, lexicon.Cuts w [w]) :
    lexicon.Cuts text (tokens.map String.toList) := by
  induction h with
  | @none gap hgap =>
      rw [← List.append_nil gap]
      exact .separators hgap .nil
  | @last before after token hbefore hafter =>
      have htoken := halone _ (.head _)
      have hends : lexicon.EndsBefore after := endsBefore_of_isBlank fun c hc =>
        List.all_eq_true.1 hafter c (List.mem_of_mem_head? hc)
      have hnone : lexicon.Cuts (after ++ []) [] := .separators hafter .nil
      rw [List.append_nil] at hnone
      exact .separators hbefore (htoken.append hends hnone)
  | @next before rest c token other tokens hbefore hc _ ih =>
      obtain ⟨htoken, hothers⟩ := List.forall_mem_cons.1 halone
      have hends : lexicon.EndsBefore (c :: rest) := endsBefore_of_isBlank fun d hd => by
        cases hd
        exact hc
      exact .separators hbefore (htoken.append hends (.separator hc (ih hothers)))

/-- The tokens of a text, written with white space between them, are scanned to themselves, and
what is written is read as the text was: to the same rule, or with the same error. -/
theorem parse_of_spaced {text other : String} {tokens : List Token} (h : scan text = .ok tokens)
    (hspaced : Spaced tokens other.toList) :
    scan other = .ok tokens ∧ Tree.parse other = Tree.parse text := by
  have halone := (scan_eq_ok_iff.1 h).alone isLocal_lexeme?
  have hscan : scan other = .ok tokens := scan_eq_ok_iff.2 (hspaced.cuts halone)
  refine ⟨hscan, ?_⟩
  rw [Tree.parse, Tree.parse, h, hscan]

/-- A quoted text with blanks of its own, and a rule with a symbol that is no comparator, both
spaced by white space of several kinds. -/
theorem parse_of_spaced_two :
    (scan "größe='x  y'" = .ok ["größe", "=", "'x  y'"] ∧
      scan "\t größe\u3000=\n 'x  y'" = .ok ["größe", "=", "'x  y'"] ∧
      Tree.parse "\t größe\u3000=\n 'x  y'" = .ok (.leaf ⟨"größe", .equal, .text "x  y"⟩)) ∧
    scan "a>=-1.5" = .ok ["a", ">=", "-1.5"] ∧
      Tree.parse "a >= -1.5 " = .error (.syntaxFault 1 (.unsupportedComparator ">=")) := by
  have hquoted : scan "größe='x  y'" = .ok ["größe", "=", "'x  y'"] := by decide +kernel
  have hsymbol : scan "a>=-1.5" = .ok ["a", ">=", "-1.5"] := by decide +kernel
  have hfirst : Spaced ["größe", "=", "'x  y'"] "\t größe\u3000=\n 'x  y'".toList :=
    @Spaced.next ['\t', ' '] "=\n 'x  y'".toList '\u3000' "größe" "=" ["'x  y'"]
      (by decide) (by decide)
      (@Spaced.next [] " 'x  y'".toList '\n' "=" "'x  y'" [] (by decide) (by decide)
        (@Spaced.last [' '] [] "'x  y'" (by decide) (by decide)))
  have hsecond : Spaced ["a", ">=", "-1.5"] "a >= -1.5 ".toList :=
    @Spaced.next [] ">= -1.5 ".toList ' ' "a" ">=" ["-1.5"] (by decide) (by decide)
      (@Spaced.next [] "-1.5 ".toList ' ' ">=" "-1.5" [] (by decide) (by decide)
        (@Spaced.last [] [' '] "-1.5" (by decide) (by decide)))
  obtain ⟨hscan, hparse⟩ := parse_of_spaced hquoted hfirst
  refine ⟨⟨hquoted, hscan, ?_⟩, hsymbol, ?_⟩
  · rw [hparse]
    decide +kernel
  · rw [(parse_of_spaced hsymbol hsecond).2]
    decide +kernel

end Token

end Rulebook
