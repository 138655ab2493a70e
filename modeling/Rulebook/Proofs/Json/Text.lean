import Rulebook.Json.Document

/-!
# Strings are read back as they are written

A unit of a string can be written in three ways (`TextUnit.Spells`).  Whichever way is
taken, the units of a string are read back (`TextUnit.SpellAll.ofChars?`), and the quote that
closes it is found (`TextUnit.SpellAll.closing?`).  A text is the text of its units
(`textOf?_unitsOf`).
-/

namespace Rulebook.Json

/-! ## Hexadecimal digits -/

theorem hexValue?_hexDigit {n : Nat} (h : n < 16) : hexValue? (hexDigit n) = some n := by
  have hall : ∀ n < 16, hexValue? (hexDigit n) = some n := by decide
  exact hall n h

theorem hexCode?_hexDigit {code : Nat} (h : code < 0x10000) :
    hexCode? (hexDigit (code / 4096 % 16)) (hexDigit (code / 256 % 16))
      (hexDigit (code / 16 % 16)) (hexDigit (code % 16)) = some code := by
  have hdigit (n : Nat) : hexValue? (hexDigit (n % 16)) = some (n % 16) :=
    hexValue?_hexDigit (Nat.mod_lt n (by decide))
  simp only [hexCode?, hdigit, Option.pure_def, Option.bind_eq_bind, Option.bind_some,
    Option.some.injEq]
  omega

/-- A hexadecimal digit neither closes a string nor starts an escape. -/
theorem ne_of_hexValue? {c : Char} {n : Nat} (h : hexValue? c = some n) :
    c ≠ '"' ∧ c ≠ '\\' := by
  constructor <;> (rintro rfl; cases h)

theorem exists_hexValue?_of_hexCode? {a b c d : Char} {code : Nat}
    (h : hexCode? a b c d = some code) :
    ∀ digit ∈ [a, b, c, d], ∃ n, hexValue? digit = some n := by
  simp only [hexCode?, Option.bind_eq_bind, Option.bind_eq_some_iff] at h
  obtain ⟨_, ha, _, hb, _, hc, _, hd, -⟩ := h
  simp [ha, hb, hc, hd]

namespace TextUnit

/-! ## The ways to write a unit -/

/-- A half of a character has a code that no character has. -/
def IsProper : TextUnit → Prop
  | char _ => True
  | half code => 0xD800 ≤ code ∧ code ≤ 0xDFFF

/-- The ways to write a unit inside a string. -/
inductive Spells : TextUnit → List Char → Prop where
  /-- A character for itself. -/
  | plain {c : Char} (hspace : ¬ c < ' ') (hbackslash : c ≠ '\\') (hquote : c ≠ '"') :
      Spells (char c) [c]
  /-- An escape of one letter. -/
  | short {c letter : Char} (h : ofShortEscape? letter = some c) :
      Spells (char c) ['\\', letter]
  /-- An escape of four hexadecimal digits. -/
  | hex {a b c d : Char} {code : Nat} (h : hexCode? a b c d = some code) :
      Spells (ofCode code) ['\\', 'u', a, b, c, d]

theorem spells_hexEscape {code : Nat} (h : code < 0x10000) :
    Spells (ofCode code) (hexEscape code) :=
  .hex (hexCode?_hexDigit h)

theorem spells_text {u : TextUnit} (h : u.IsProper) : u.Spells u.text := by
  cases u with
  | half code =>
      obtain ⟨hlow, hhigh⟩ := h
      have hcode : ofCode code = half code := if_pos ⟨hlow, hhigh⟩
      have hhex : Spells (ofCode code) (hexEscape code) := spells_hexEscape (by omega)
      rwa [hcode] at hhex
  | char c =>
      cases hlookup : shortEscapes.lookup c with
      | some letter =>
          simp only [text, hlookup]
          obtain ⟨before, after, hmem, -⟩ := List.lookup_eq_some_iff.1 hlookup
          have hall : ∀ p ∈ shortEscapes, ofShortEscape? p.2 = some p.1 := by decide
          exact .short (hall (c, letter) (hmem ▸ List.mem_append_right before (.head after)))
      | none =>
          simp only [text, hlookup]
          split
          next hspace =>
            have hcode : c.toNat < 32 := hspace
            have hchar : ofCode c.toNat = char c := by
              rw [ofCode, if_neg (by omega), Char.ofNat_toNat]
            have hhex : Spells (ofCode c.toNat) (hexEscape c.toNat) :=
              spells_hexEscape (by omega)
            rwa [hchar] at hhex
          next hspace =>
            rw [List.lookup_eq_none_iff] at hlookup
            have hbackslash := hlookup ('\\', '\\') (by decide)
            have hquote := hlookup ('"', '"') (by decide)
            exact .plain hspace (bne_iff_ne.1 hbackslash) (bne_iff_ne.1 hquote)

/-- The ways to write the units of a string. -/
inductive SpellAll : List TextUnit → List Char → Prop where
  | nil : SpellAll [] []
  | cons {u : TextUnit} {units : List TextUnit} {w rest : List Char} :
      u.Spells w → SpellAll units rest → SpellAll (u :: units) (w ++ rest)

theorem spellAll_flatMap_text {units : List TextUnit} (h : ∀ u ∈ units, u.IsProper) :
    SpellAll units (units.flatMap text) := by
  induction units with
  | nil => exact .nil
  | cons u rest ih =>
      rw [List.flatMap_cons]
      exact .cons (spells_text (h u (.head _))) (ih fun v hv => h v (.tail u hv))

/-! ## Reading units -/

theorem Spells.ofChars?_append {u : TextUnit} {w : List Char} (h : u.Spells w)
    (rest : List Char) : ofChars? (w ++ rest) = (ofChars? rest).map (u :: ·) := by
  cases h with
  | plain hspace hbackslash hquote => simp [ofChars?, hspace, hbackslash, hquote]
  | @short c letter h =>
      have hu : letter ≠ 'u' := by
        rintro rfl
        cases h
      simp [ofChars?, hu, h]
  | hex h => simp [ofChars?, h]

theorem SpellAll.ofChars? {units : List TextUnit} {w : List Char} (h : SpellAll units w) :
    TextUnit.ofChars? w = some units := by
  induction h with
  | nil => rfl
  | cons hu _ ih =>
      rw [hu.ofChars?_append, ih]
      rfl

/-! ## The quote that closes a string -/

theorem closing?_cons {c : Char} (hquote : c ≠ '"') (hbackslash : c ≠ '\\')
    (rest : List Char) :
    Token.closing? (c :: rest) = (Token.closing? rest).map (c :: ·) := by
  simp [Token.closing?, hbackslash]

theorem Spells.closing?_append {u : TextUnit} {w : List Char} (h : u.Spells w)
    (rest : List Char) : Token.closing? (w ++ rest) = (Token.closing? rest).map (w ++ ·) := by
  cases h with
  | plain hspace hbackslash hquote => exact closing?_cons hquote hbackslash rest
  | short h => rfl
  | @hex a b c d code h =>
      have hdigit (digit : Char) (hmem : digit ∈ [a, b, c, d]) (rest : List Char) :
          Token.closing? (digit :: rest) = (Token.closing? rest).map (digit :: ·) := by
        obtain ⟨n, hn⟩ := exists_hexValue?_of_hexCode? h digit hmem
        obtain ⟨hquote, hbackslash⟩ := ne_of_hexValue? hn
        exact closing?_cons hquote hbackslash rest
      simp only [List.cons_append, List.nil_append, Token.closing?]
      rw [hdigit a (by simp), hdigit b (by simp), hdigit c (by simp), hdigit d (by simp)]
      simp only [Option.map_map]
      rfl

theorem SpellAll.closing? {units : List TextUnit} {w : List Char} (h : SpellAll units w)
    (rest : List Char) : Token.closing? (w ++ '"' :: rest) = some (w ++ ['"']) := by
  induction h with
  | nil => rfl
  | cons hu _ ih =>
      rw [List.append_assoc, hu.closing?_append, ih]
      exact congrArg some (List.append_assoc _ _ _).symm

end TextUnit

/-! ## Texts and their units -/

theorem TextUnit.decode?_map_char (text : List Char) :
    decode? (text.map char) = some text := by
  induction text with
  | nil => rfl
  | cons c rest ih =>
      rw [List.map_cons, decode?, ih]
      rfl

theorem isProper_of_mem_unitsOf {s : String} {u : TextUnit} (h : u ∈ unitsOf s) :
    u.IsProper := by
  obtain ⟨c, -, rfl⟩ := List.mem_map.1 h
  trivial

theorem textOf?_unitsOf (s : String) : textOf? (unitsOf s) = some s := by
  rw [textOf?, unitsOf, TextUnit.decode?_map_char, Option.map_some, String.ofList_toList]

end Rulebook.Json
