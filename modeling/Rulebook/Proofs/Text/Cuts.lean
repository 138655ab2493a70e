import Rulebook.Proofs.Text.Lexeme

/-!
# The lexemes that a text falls into

`Lexicon.Cuts` relates a text to its lexemes, without the offsets and counts of the cut.  If
every lexeme is a part of its text, the cut succeeds exactly with the lexemes that the text
falls into (`Lexicon.cut_eq_ok_iff`).  It fails at a character that starts neither a separator
nor a lexeme, and if lexemes do not depend on what follows them (`IsLocal`), the text before
this character falls into lexemes (`Lexicon.exists_of_cut_eq_error`).

Two texts can be put side by side where every lexeme of the first ends before the second
(`Lexicon.EndsBefore`, `Lexicon.Cuts.append`).
-/

namespace Rulebook.Text

/-- What is taken from the start of a text does not depend on what follows it. -/
structure IsLocal (take : List Char → Option (List Char)) : Prop where
  eq_none : ∀ {text rest : List Char}, take (text ++ rest) = none → take text = none
  eq_some : ∀ {text rest w : List Char}, take (text ++ rest) = some w →
    w.length ≤ text.length → take text = some w

/-- The first of two ways to take something. -/
theorem IsLocal.or {first second : List Char → Option (List Char)} (hf : IsLocal first)
    (hs : IsLocal second) : IsLocal fun text => (first text).or (second text) where
  eq_none := by
    intro text rest h
    rw [Option.or_eq_none_iff] at h ⊢
    exact ⟨hf.eq_none h.1, hs.eq_none h.2⟩
  eq_some := by
    intro text rest w h hw
    rw [Option.or_eq_some_iff] at h ⊢
    rcases h with h | ⟨hnone, h⟩
    · exact .inl (hf.eq_some h hw)
    · exact .inr ⟨hf.eq_none hnone, hs.eq_some h hw⟩

namespace Lexicon

/-- A text falls into lexemes, with separators between them. -/
inductive Cuts (l : Lexicon) : List Char → List (List Char) → Prop where
  | nil : Cuts l [] []
  | separator {c : Char} {rest : List Char} {lexemes : List (List Char)} :
      l.isSeparator c = true → Cuts l rest lexemes → Cuts l (c :: rest) lexemes
  | lexeme {c : Char} {w rest : List Char} {lexemes : List (List Char)} :
      l.isSeparator c = false → l.lexeme? (c :: (w ++ rest)) = some (c :: w) →
      Cuts l rest lexemes → Cuts l (c :: (w ++ rest)) ((c :: w) :: lexemes)

/-- Every lexeme has a character and is the start of its text. -/
def IsProper (l : Lexicon) : Prop :=
  ∀ text w, l.lexeme? text = some w → w ≠ [] ∧ w <+: text

/-- Every lexeme of a text ends before what follows the text. -/
def EndsBefore (l : Lexicon) (rest : List Char) : Prop :=
  ∀ text w, l.lexeme? text = some w → l.lexeme? (text ++ rest) = some w

variable {l : Lexicon}

/-! ## The cut -/

theorem Cuts.cutFrom {text : List Char} {lexemes : List (List Char)} (h : l.Cuts text lexemes)
    (offset : Nat) : l.cutFrom 0 offset text = .ok lexemes := by
  induction h generalizing offset with
  | nil => rfl
  | separator hc _ ih =>
      rw [Lexicon.cutFrom, hc, if_pos rfl, ih]
  | lexeme hc hw _ ih =>
      rw [l.cutFrom_lexeme hc hw, ih]
      rfl

theorem cuts_of_cutFrom (hl : l.IsProper) : ∀ {text : List Char} {offset : Nat}
    {lexemes : List (List Char)}, l.cutFrom 0 offset text = .ok lexemes → l.Cuts text lexemes
  | [], _, _, h => by
      cases h
      exact .nil
  | c :: rest, offset, lexemes, h => by
      cases hc : l.isSeparator c with
      | true =>
          rw [Lexicon.cutFrom, hc, if_pos rfl] at h
          exact .separator hc (cuts_of_cutFrom hl h)
      | false =>
          cases hw : l.lexeme? (c :: rest) with
          | none =>
              rw [Lexicon.cutFrom, hc, hw] at h
              cases h
          | some w =>
              obtain ⟨hne, after, hafter⟩ := hl _ _ hw
              obtain ⟨d, w, rfl⟩ := List.exists_cons_of_ne_nil hne
              rw [List.cons_append, List.cons.injEq] at hafter
              obtain ⟨rfl, rfl⟩ := hafter
              rw [l.cutFrom_lexeme hc hw] at h
              cases hcut : l.cutFrom 0 (offset + utf8Length (d :: w)) after with
              | error uncut =>
                  rw [hcut] at h
                  cases h
              | ok others =>
                  rw [hcut] at h
                  cases h
                  exact .lexeme hc hw (cuts_of_cutFrom hl hcut)
termination_by text => text.length

/-- The cut succeeds exactly with the lexemes that the text falls into. -/
theorem cut_eq_ok_iff (hl : l.IsProper) {text : List Char} {lexemes : List (List Char)} :
    l.cut text = .ok lexemes ↔ l.Cuts text lexemes :=
  ⟨cuts_of_cutFrom hl, fun h => h.cutFrom 0⟩

/-- The cut fails at the first character that starts neither a separator nor a lexeme; the
text before it falls into lexemes. -/
theorem exists_of_cutFrom_eq_error (hl : l.IsProper) (hlocal : IsLocal l.lexeme?) :
    ∀ {text : List Char} {offset : Nat} {uncut : Uncut}, l.cutFrom 0 offset text = .error uncut →
      ∃ before after lexemes, text = before ++ uncut.char :: after ∧
        uncut.offset = offset + utf8Length before ∧ l.isSeparator uncut.char = false ∧
        l.lexeme? (uncut.char :: after) = none ∧ l.Cuts before lexemes
  | [], _, _, h => by cases h
  | c :: rest, offset, uncut, h => by
      cases hc : l.isSeparator c with
      | true =>
          rw [Lexicon.cutFrom, hc, if_pos rfl] at h
          obtain ⟨before, after, lexemes, rfl, hoffset, hchar, hnone, hcuts⟩ :=
            exists_of_cutFrom_eq_error hl hlocal h
          refine ⟨c :: before, after, lexemes, rfl, ?_, hchar, hnone, .separator hc hcuts⟩
          rw [hoffset, utf8Length, Nat.add_assoc]
      | false =>
          cases hw : l.lexeme? (c :: rest) with
          | none =>
              rw [Lexicon.cutFrom, hc, hw] at h
              cases h
              exact ⟨[], rest, [], rfl, rfl, hc, hw, .nil⟩
          | some w =>
              obtain ⟨hne, tail, htail⟩ := hl _ _ hw
              obtain ⟨d, w, rfl⟩ := List.exists_cons_of_ne_nil hne
              rw [List.cons_append, List.cons.injEq] at htail
              obtain ⟨rfl, rfl⟩ := htail
              rw [l.cutFrom_lexeme hc hw] at h
              cases hcut : l.cutFrom 0 (offset + utf8Length (d :: w)) tail with
              | ok others =>
                  rw [hcut] at h
                  cases h
              | error stopped =>
                  rw [hcut] at h
                  cases h
                  obtain ⟨before, after, lexemes, rfl, hoffset, hchar, hnone, hcuts⟩ :=
                    exists_of_cutFrom_eq_error hl hlocal hcut
                  rw [← List.append_assoc, ← List.cons_append] at hw
                  have hlexeme := hlocal.eq_some hw (by simp)
                  refine ⟨d :: (w ++ before), after, (d :: w) :: lexemes, by simp, ?_, hchar,
                    hnone, .lexeme hc hlexeme hcuts⟩
                  rw [hoffset, ← List.cons_append, utf8Length_append, Nat.add_assoc]
termination_by text => text.length

theorem exists_of_cut_eq_error (hl : l.IsProper) (hlocal : IsLocal l.lexeme?)
    {text : List Char} {uncut : Uncut} (h : l.cut text = .error uncut) :
    ∃ before after lexemes, text = before ++ uncut.char :: after ∧
      uncut.offset = utf8Length before ∧ l.isSeparator uncut.char = false ∧
      l.lexeme? (uncut.char :: after) = none ∧ l.Cuts before lexemes := by
  simpa using exists_of_cutFrom_eq_error hl hlocal h

/-! ## Texts side by side -/

theorem Cuts.append {text rest : List Char} {lexemes others : List (List Char)}
    (h : l.Cuts text lexemes) (hends : l.EndsBefore rest) (hrest : l.Cuts rest others) :
    l.Cuts (text ++ rest) (lexemes ++ others) := by
  induction h with
  | nil => exact hrest
  | separator hc _ ih => exact .separator hc ih
  | @lexeme c w after lexemes hc hw _ ih =>
      have hwhole := hends _ _ hw
      rw [List.cons_append, List.append_assoc] at hwhole ⊢
      exact .lexeme hc hwhole ih

/-- A text that is a lexeme falls into this one. -/
theorem Cuts.single {c : Char} {w : List Char} (hc : l.isSeparator c = false)
    (hw : l.lexeme? (c :: w) = some (c :: w)) : l.Cuts (c :: w) [c :: w] := by
  have hcuts := @Cuts.lexeme l c w [] [] hc (by rwa [List.append_nil]) .nil
  rwa [List.append_nil] at hcuts

end Lexicon

end Rulebook.Text
