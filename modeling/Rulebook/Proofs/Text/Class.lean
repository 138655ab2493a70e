import Rulebook.Text.Class

/-!
# How character classes lie to each other

Two sets of characters have none in common if their ranges lie apart
(`Ranges.includes_eq_false_of_apart`).  So no character of words is white space
(`isBlank_of_isWordChar`).  The digits `0` to `9` are digits, and digits are characters of
words.

The characters of words and those of names differ.  What words have and names do not are marks,
connectors and joiners (`isWordOnly_eq`); what names have and words do not are numbers that are
neither digits nor letters, and the characters of the later version (`isNameOnly_eq`).
-/

namespace Rulebook.Text

/-! ## Ranges -/

theorem Ranges.includes_cons_iff {p : Nat × Nat} {r : Ranges} {code : Nat} :
    Ranges.includes (p :: r) code = true ↔
      p.1 ≤ code ∧ (code ≤ p.2 ∨ r.includes code = true) := by
  rw [includes]
  by_cases hlow : code < p.1
  · simp [hlow, Nat.not_le.2 hlow]
  · by_cases hhigh : code ≤ p.2 <;> simp [hlow, hhigh, Nat.not_lt.1 hlow]

/-- The ranges of two ascending lists lie apart.  For each range of the one list, those of the
other that lie below it are passed over, and the next one must lie above it. -/
def Ranges.apart : Ranges → Ranges → Bool
  | [], _ => true
  | p :: r, s =>
      let next := s.dropWhile fun q => decide (q.2 < p.1)
      next.head?.all (fun q => decide (p.2 < q.1)) && Ranges.apart r next

/-- What lies below a code point may be passed over. -/
theorem Ranges.includes_dropWhile {s : Ranges} {low code : Nat} (hlow : low ≤ code)
    (h : s.includes code = true) :
    Ranges.includes (s.dropWhile fun q => decide (q.2 < low)) code = true := by
  induction s with
  | nil => cases h
  | cons q s ih =>
      rw [List.dropWhile_cons]
      split
      next hbelow =>
        rw [decide_eq_true_eq] at hbelow
        rcases (includes_cons_iff.1 h).2 with hhigh | hrest
        · omega
        · exact ih hrest
      next => exact h

theorem Ranges.includes_eq_false_of_apart {r s : Ranges} (hapart : r.apart s = true) {code : Nat}
    (h : r.includes code = true) : s.includes code = false := by
  rw [Bool.eq_false_iff]
  intro hs
  induction r generalizing s with
  | nil => cases h
  | cons p r ih =>
      rw [apart, Bool.and_eq_true] at hapart
      obtain ⟨hlow, hcode⟩ := includes_cons_iff.1 h
      have hnext := includes_dropWhile hlow hs
      rcases hcode with hhigh | hrest
      · generalize s.dropWhile (fun q => decide (q.2 < p.1)) = next at hapart hnext
        cases next with
        | nil => cases hnext
        | cons q next =>
            have hnextLow := (includes_cons_iff.1 hnext).1
            have habove : p.2 < q.1 := by simpa using hapart.1
            omega
      · exact ih hapart.2 hrest hnext

/-- Every range of the one list lies within a range of the other. -/
def Ranges.within (r s : Ranges) : Bool :=
  r.all fun p => s.any fun q => decide (q.1 ≤ p.1) && decide (p.2 ≤ q.2)

/-- In an ascending list every range is found. -/
theorem Ranges.includes_of_mem {r : Ranges} {least code : Nat} {p : Nat × Nat}
    (hr : r.ascendingFrom least = true) (hp : p ∈ r) (hlow : p.1 ≤ code) (hhigh : code ≤ p.2) :
    least ≤ code ∧ r.includes code = true := by
  induction r generalizing least with
  | nil => cases hp
  | cons q r ih =>
      simp only [ascendingFrom, Bool.and_eq_true, decide_eq_true_eq] at hr
      obtain ⟨⟨hleast, horder⟩, hr⟩ := hr
      rw [includes_cons_iff]
      cases hp with
      | head => exact ⟨Nat.le_trans hleast hlow, hlow, .inl hhigh⟩
      | tail _ hp =>
          obtain ⟨hcode, hfound⟩ := ih hr hp
          exact ⟨by omega, by omega, .inr hfound⟩

theorem Ranges.includes_of_within {r s : Ranges} (hwithin : r.within s = true)
    (hs : s.ascendingFrom 0 = true) {code : Nat} (h : r.includes code = true) :
    s.includes code = true := by
  induction r with
  | nil => cases h
  | cons p r ih =>
      rw [within, List.all_cons, Bool.and_eq_true] at hwithin
      obtain ⟨hlow, hhigh | hrest⟩ := includes_cons_iff.1 h
      · obtain ⟨q, hq, hpq⟩ := List.any_eq_true.1 hwithin.1
        simp only [Bool.and_eq_true, decide_eq_true_eq] at hpq
        exact (includes_of_mem hs hq (Nat.le_trans hpq.1 hlow) (Nat.le_trans hhigh hpq.2)).2
      · exact ih hwithin.2 hrest

/-! ## Characters of words -/

theorem isWordChar_of_isDigit {c : Char} (h : isDigit c = true) : isWordChar c = true := by
  simp [isWordChar, h]

theorem isDigit_eq_false {c : Char} (h : isWordChar c = false) : isDigit c = false := by
  rw [Bool.eq_false_iff]
  intro hdigit
  rw [isWordChar_of_isDigit hdigit] at h
  cases h

theorem isDigit_of_isDigit {c : Char} (h : c.isDigit = true) : isDigit c = true := by
  have hcode : 48 ≤ c.toNat ∧ c.toNat ≤ 57 := by
    simpa [Char.isDigit, UInt32.le_iff_toNat_le] using h
  simp only [isDigit, decimalDigit, Ranges.includes, if_neg (Nat.not_lt.2 hcode.1),
    if_pos hcode.2]

theorem all_isDigit {text : List Char} (h : text.all Char.isDigit = true) :
    text.all isDigit = true := by
  rw [List.all_eq_true] at h ⊢
  exact fun c hc => isDigit_of_isDigit (h c hc)

theorem isWordChar_of_isBlank {c : Char} (h : isBlank c = true) : isWordChar c = false := by
  have hapart : ∀ r ∈ [alphabetic, mark, decimalDigit, connector, joiner],
      whiteSpace.apart r = true := by
    decide +kernel
  have hfalse (r : Ranges) (hr : r ∈ [alphabetic, mark, decimalDigit, connector, joiner]) :
      r.includes c.toNat = false :=
    Ranges.includes_eq_false_of_apart (hapart r hr) h
  simp [isWordChar, isDigit, hfalse]

/-- No character of words is white space. -/
theorem isBlank_of_isWordChar {c : Char} (h : isWordChar c = true) : isBlank c = false := by
  rw [Bool.eq_false_iff]
  intro hblank
  rw [isWordChar_of_isBlank hblank] at h
  cases h

/-! ## Words and names -/

/-- A character that words have and names do not: a mark that is no letter, a connector other
than the underscore, or a joiner. -/
def isWordOnly (c : Char) : Bool :=
  (mark.includes c.toNat && !alphabetic.includes c.toNat) ||
    (connector.includes c.toNat && c != '_') || joiner.includes c.toNat

/-- A character that names have and words do not: a number that is neither a digit nor a letter,
or a letter or digit of the later version. -/
def isNameOnly (c : Char) : Bool :=
  otherNumber.includes c.toNat || addedAlphabetic.includes c.toNat ||
    addedDecimalDigit.includes c.toNat

theorem includes_eq_false_of_mem {classes others : List Ranges} {code : Nat}
    (hapart : ∀ r ∈ classes, ∀ s ∈ others, r.apart s = true)
    (h : ∃ r ∈ classes, r.includes code = true) : ∀ s ∈ others, s.includes code = false := by
  obtain ⟨r, hr, hcode⟩ := h
  exact fun s hs => Ranges.includes_eq_false_of_apart (hapart r hr s hs) hcode

theorem isWordChar_of_isNameOnly {c : Char} (h : isNameOnly c = true) : isWordChar c = false := by
  have hapart : ∀ r ∈ [otherNumber, addedAlphabetic, addedDecimalDigit],
      ∀ s ∈ [alphabetic, mark, decimalDigit, connector, joiner], r.apart s = true := by
    decide +kernel
  have hclass : ∃ r ∈ [otherNumber, addedAlphabetic, addedDecimalDigit],
      r.includes c.toNat = true := by
    simpa [isNameOnly, or_assoc] using h
  simp [isWordChar, isDigit, includes_eq_false_of_mem hapart hclass]

theorem isNameChar_of_isWordOnly {c : Char} (h : isWordOnly c = true) : isNameChar c = false := by
  have hapart : ∀ r ∈ [mark, connector, joiner],
      ∀ s ∈ [addedAlphabetic, decimalDigit, addedDecimalDigit, letterNumber, otherNumber],
        r.apart s = true := by
    decide +kernel
  have hletters : ∀ r ∈ [connector, joiner], ∀ s ∈ [alphabetic], r.apart s = true := by
    decide +kernel
  simp only [isWordOnly, Bool.or_eq_true, Bool.and_eq_true, Bool.not_eq_true', bne_iff_ne] at h
  have hclass : ∃ r ∈ [mark, connector, joiner], r.includes c.toNat = true := by
    simp only [List.mem_cons, List.not_mem_nil, or_false, exists_eq_or_imp, exists_eq_left]
    grind
  have hletter : alphabetic.includes c.toNat = false := by
    rcases h with (⟨-, hletter⟩ | ⟨hconnector, -⟩) | hjoiner
    · exact hletter
    · exact includes_eq_false_of_mem hletters ⟨_, .head _, hconnector⟩ _ (.head _)
    · exact includes_eq_false_of_mem hletters ⟨_, .tail _ (.head _), hjoiner⟩ _ (.head _)
  have hunderscore : c ≠ '_' := by
    rintro rfl
    exact absurd h (by decide +kernel)
  simp [isNameChar, isLetter, isNumber, isDigit, hletter, hunderscore,
    includes_eq_false_of_mem hapart hclass]

theorem isWordOnly_eq (c : Char) : isWordOnly c = (isWordChar c && !isNameChar c) := by
  rw [Bool.eq_iff_iff, Bool.and_eq_true, Bool.not_eq_true']
  constructor
  · intro h
    refine ⟨?_, isNameChar_of_isWordOnly h⟩
    simp only [isWordOnly, Bool.or_eq_true, Bool.and_eq_true] at h
    simp only [isWordChar, Bool.or_eq_true]
    grind
  · rintro ⟨hword, hname⟩
    simp only [isWordChar, Bool.or_eq_true] at hword
    simp only [isNameChar, isLetter, isNumber, Bool.or_eq_false_iff, beq_eq_false_iff_ne] at hname
    simp only [isWordOnly, Bool.or_eq_true, Bool.and_eq_true, Bool.not_eq_true', bne_iff_ne]
    grind

theorem isNameOnly_eq (c : Char) : isNameOnly c = (isNameChar c && !isWordChar c) := by
  have hletterNumber : letterNumber.includes c.toNat = true → alphabetic.includes c.toNat = true :=
    Ranges.includes_of_within (by decide +kernel) (by decide +kernel)
  have hunderscore : c = '_' → connector.includes c.toNat = true := by
    rintro rfl
    decide
  rw [Bool.eq_iff_iff, Bool.and_eq_true, Bool.not_eq_true']
  constructor
  · intro h
    refine ⟨?_, isWordChar_of_isNameOnly h⟩
    simp only [isNameOnly, Bool.or_eq_true] at h
    simp only [isNameChar, isLetter, isNumber, Bool.or_eq_true]
    grind
  · rintro ⟨hname, hword⟩
    simp only [isNameChar, isLetter, isNumber, Bool.or_eq_true, beq_iff_eq] at hname
    simp only [isWordChar, Bool.or_eq_false_iff] at hword
    simp only [isNameOnly, Bool.or_eq_true]
    grind

/-! ## Blank texts -/

theorem isBlankText_eq_false_iff {text : String} :
    isBlankText text = false ↔ ∃ c ∈ text.toList, isBlank c = false := by
  simp [isBlankText]

end Rulebook.Text
