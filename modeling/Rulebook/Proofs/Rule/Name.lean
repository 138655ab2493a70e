import Rulebook.Proofs.Rule.Display
import Rulebook.Proofs.WellFormed

/-!
# Words that name fields

A token may be given as the field of a condition (`Token.IsField`), and it may be a word that
starts with a letter or the underscore and is no operator (`Token.IsNamingWord`).  The two differ
for just two kinds of tokens: words with a character that names do not have, and names with a
character that words do not have (`Token.isField_iff_isNamingWord_iff`).  Names of the second kind
stand in no rule text, and in ASCII there are neither (`Token.isField_iff_isNamingWord_of_ascii`).
-/

namespace Rulebook

theorem Tree.exists_mem_fields : ∀ tree : Tree, ∃ field, field ∈ tree.fields
  | .leaf c => ⟨c.field, .head _⟩
  | .operator _ left _ =>
      have ⟨field, hfield⟩ := left.exists_mem_fields
      ⟨field, List.mem_append_left _ hfield⟩

namespace Token

open Text

/-- A token can stand before `> 1` as the field of a condition. -/
def IsField (token : Token) : Prop := ∃ tree, Tree.ofTokens [token, ">", "1"] = .ok tree

/-- A rule text can hold a token as a field. -/
def IsWrittenField (token : Token) : Prop :=
  ∃ text tree, Tree.parse text = .ok tree ∧ token ∈ tree.fields

/-- A text is a single word, starts with a letter or the underscore, and is no operator. -/
structure IsNamingWord (token : Token) : Prop where
  /-- It is a word. -/
  isWord : IsWord token
  /-- It starts with a letter or the underscore. -/
  start : ∃ c ∈ token.toList.head?, isNameStart c = true
  /-- It is no operator. -/
  not_operator : token ≠ "AND" ∧ token ≠ "OR"

/-! ## Names and words by their characters -/

theorem isNone_ofKeyword?_iff {token : Token} :
    (LogicalOp.ofKeyword? token).isNone = true ↔ token ≠ "AND" ∧ token ≠ "OR" := by
  rw [Option.isNone_iff_eq_none, Option.eq_none_iff_forall_ne_some]
  simp only [ne_eq, LogicalOp.ofKeyword?_eq_some_iff]
  constructor
  · intro h
    exact ⟨h .and, h .or⟩
  · rintro ⟨hand, hor⟩ (_ | _)
    · exact hand
    · exact hor

theorem isNameChar_of_isNameStart {c : Char} (h : isNameStart c = true) :
    isNameChar c = true := by
  rw [isNameStart, Bool.or_eq_true] at h
  rcases h with h | h <;> simp [isNameChar, h]

/-- A name of fields is made of characters of names. -/
theorem isFieldName_iff {token : Token} :
    isFieldName token = true ↔
      token.toList.all isNameChar = true ∧ (∃ c ∈ token.toList.head?, isNameStart c = true) ∧
        token ≠ "AND" ∧ token ≠ "OR" := by
  rw [← isNone_ofKeyword?_iff]
  unfold isFieldName
  cases token.toList with
  | nil => simp
  | cons c rest =>
      have hchar : isNameStart c = true → isNameChar c = true := isNameChar_of_isNameStart
      simp only [List.head?_cons, Option.mem_def, Option.some.injEq, exists_eq_left',
        List.all_cons, Bool.and_eq_true]
      tauto

/-- A word that may name a field is made of characters of words. -/
theorem isNamingWord_iff {token : Token} :
    IsNamingWord token ↔
      token.toList.all isWordChar = true ∧ (∃ c ∈ token.toList.head?, isNameStart c = true) ∧
        token ≠ "AND" ∧ token ≠ "OR" := by
  constructor
  · intro h
    exact ⟨h.isWord.all_isWordChar, h.start, h.not_operator⟩
  · rintro ⟨hall, hstart, hoperator⟩
    refine ⟨.of_all ?_ hall, hstart, hoperator⟩
    intro hnil
    simp [hnil] at hstart

/-- A text of characters of one class is of another class too unless it has a character that
only the first class has. -/
theorem all_iff_not_exists {first second only : Char → Bool}
    (honly : ∀ c, only c = (first c && !second c)) {text : List Char}
    (h : text.all first = true) :
    text.all second = true ↔ ¬ ∃ c ∈ text, only c = true := by
  rw [List.all_eq_true] at h ⊢
  simp only [not_exists, not_and]
  refine forall₂_congr fun c hc => ?_
  simp [honly, h c hc]

/-! ## Fields -/

theorem ofToken_one : Literal.ofToken "1" = .ok (.int 1) := by decide +kernel

/-- The tokens that can be given as fields are the names of fields. -/
theorem isField_iff {token : Token} : IsField token ↔ isFieldName token = true := by
  constructor
  · rintro ⟨tree, h⟩
    obtain ⟨hrule, -⟩ := Tree.isRule_of_ofTokens h
    obtain ⟨field, hfield⟩ := tree.exists_mem_fields
    have hname := hrule.isFieldName field hfield
    have hothers : ∀ other ∈ [">", "1"], isFieldName other = false := by decide +kernel
    rcases List.mem_cons.1 (hrule.mem_of_mem_fields field hfield) with rfl | hother
    · exact hname
    · rw [hothers field hother] at hname
      cases hname
  · intro hname
    have hterm : IsTerm [token, Comparator.greater.symbol, "1"]
        (.leaf ⟨token, .greater, .int 1⟩) :=
      .condition hname ofToken_one
    have hnests := Tree.nestsWithin_condition (Nat.zero_le _) hname .greater ofToken_one
    exact ⟨_, (IsRule.term hterm).ofTokens (Nat.le_of_ble_eq_true rfl) hnests⟩

/-- The fields of rule texts are the names that are words. -/
theorem isWrittenField_iff {token : Token} :
    IsWrittenField token ↔ isFieldName token = true ∧ token.toList.all isWordChar = true := by
  constructor
  · rintro ⟨text, tree, hparse, htoken⟩
    have hformed := Tree.isWellFormed_of_parse hparse
    exact ⟨hformed.isFieldName token htoken, (hformed.isWord token htoken).all_isWordChar⟩
  · rintro ⟨hname, hall⟩
    have hword : IsWord token := (isNamingWord_iff.2 ⟨hall, (isFieldName_iff.1 hname).2⟩).isWord
    have hlegible : (Tree.leaf ⟨token, .greater, .int 1⟩).IsLegible :=
      .leaf hname hword.scan (.int 1)
    exact ⟨_, _, hlegible.parse_eq_ok (Nat.le_of_ble_eq_true rfl), .head _⟩

/-- A word that may name a field can be given as one unless it has a character that only words
have. -/
theorem IsNamingWord.isField_iff {token : Token} (h : IsNamingWord token) :
    IsField token ↔ ¬ ∃ c ∈ token.toList, isWordOnly c = true := by
  rw [isNamingWord_iff] at h
  rw [← all_iff_not_exists isWordOnly_eq h.1, Token.isField_iff, isFieldName_iff,
    and_iff_left h.2]

theorem IsField.all_isWordChar_iff {token : Token} (h : IsField token) :
    token.toList.all isWordChar = true ↔ ¬ ∃ c ∈ token.toList, isNameOnly c = true :=
  all_iff_not_exists isNameOnly_eq (isFieldName_iff.1 (isField_iff.1 h)).1

/-- A field is a word that may name one unless it has a character that only names have. -/
theorem IsField.isNamingWord_iff {token : Token} (h : IsField token) :
    IsNamingWord token ↔ ¬ ∃ c ∈ token.toList, isNameOnly c = true := by
  rw [← h.all_isWordChar_iff, Token.isNamingWord_iff]
  exact and_iff_left (isFieldName_iff.1 (isField_iff.1 h)).2

/-- In ASCII the two are the same. -/
theorem isField_iff_isNamingWord_of_ascii {token : Token} (h : ∀ c ∈ token.toList, c.toNat < 128) :
    IsField token ↔ IsNamingWord token := by
  have hall : ∀ n < 128, isWordOnly (.ofNat n) = false ∧ isNameOnly (.ofNat n) = false := by
    decide +kernel
  have hchar (c : Char) (hc : c ∈ token.toList) : isWordOnly c = false ∧ isNameOnly c = false := by
    have hcode := hall c.toNat (h c hc)
    rwa [Char.ofNat_toNat] at hcode
  constructor
  · intro hfield
    refine hfield.isNamingWord_iff.2 ?_
    rintro ⟨c, hc, honly⟩
    rw [(hchar c hc).2] at honly
    cases honly
  · intro hword
    refine hword.isField_iff.2 ?_
    rintro ⟨c, hc, honly⟩
    rw [(hchar c hc).1] at honly
    cases honly

/-- A token can be given as a field exactly if it is a word that starts with a letter or the
underscore and is no operator, unless it is such a word with a character that only words have, or
a field with a character that only names have.  A field can be written exactly if it has no
character that only names have. -/
theorem isField_iff_isNamingWord_iff (token : Token) :
    ((IsField token ↔ IsNamingWord token) ↔
      ¬ ((IsNamingWord token ∧ ∃ c ∈ token.toList, isWordOnly c = true) ∨
        (IsField token ∧ ∃ c ∈ token.toList, isNameOnly c = true))) ∧
    (IsWrittenField token ↔
      IsField token ∧ ¬ ∃ c ∈ token.toList, isNameOnly c = true) := by
  constructor
  · by_cases hfield : IsField token
    · by_cases hword : IsNamingWord token
      · simp [hfield, hword, hword.isField_iff.1 hfield, hfield.isNamingWord_iff.1 hword]
      · have hother := mt hfield.isNamingWord_iff.2 hword
        simp [hfield, hword, hother]
    · by_cases hword : IsNamingWord token
      · have hother := mt hword.isField_iff.2 hfield
        simp [hfield, hword, hother]
      · simp [hfield, hword]
  · rw [isWrittenField_iff, ← isField_iff]
    exact and_congr_right IsField.all_isWordChar_iff

/-- The letter a with a combining accent is such a word, but cannot be given as a field.  The
letter a with a raised two can be given as one, but is no such word and stands in no rule text
as a field. -/
theorem fields_differ_from_words :
    (IsNamingWord "a\u0301" ∧ ¬ IsField "a\u0301") ∧
      IsField "a²" ∧ ¬ IsNamingWord "a²" ∧ ¬ IsWrittenField "a²" := by
  have hword : "a\u0301".toList.all isWordChar = true ∧ isFieldName "a\u0301" = false := by
    decide +kernel
  have hname : isFieldName "a²" = true ∧ "a²".toList.all isWordChar = false := by
    decide +kernel
  refine ⟨⟨?_, ?_⟩, ?_, ?_, ?_⟩
  · exact isNamingWord_iff.2 ⟨hword.1, ⟨'a', rfl, by decide⟩, by decide⟩
  · rw [isField_iff, hword.2]
    exact Bool.false_ne_true
  · exact isField_iff.2 hname.1
  · rw [isNamingWord_iff, hname.2]
    exact fun h => Bool.false_ne_true h.1
  · rw [isWrittenField_iff, hname.2]
    exact fun h => Bool.false_ne_true h.2

end Token

end Rulebook
