import Mathlib.Algebra.Order.BigOperators.Group.List
import Rulebook.Proofs.Binary64.Numeral
import Rulebook.Proofs.Rule.Display
import Rulebook.Proofs.WellFormed

/-!
# Which rules with floating-point numbers are read back

A number that is written with all its places is one token, which stands for the number
(`Value.IsLegible.float`).  A power of ten is written with the letter `e`, which no token of a
number has.  So the tokens of a rule have as many of these letters as its names and its texts
together (`IsRule.letters`), but its display has further ones where a number is written as a
power of ten (`Tree.letters_display`).  A scan drops none of them.  Hence the rule of a text is
read back from its display exactly if none of its numbers is written as a power of ten
(`Tree.parse_display_iff`).
-/

namespace Rulebook

/-! ## Numbers with all their places -/

namespace Token

open Text

theorem fraction?_run {fraction : List Char} (h : IsDigits fraction) :
    fraction? ('.' :: fraction) = some ('.' :: fraction) := by
  have hrun := @digits?_run fraction [] h (by simp)
  rw [List.append_nil] at hrun
  rw [fraction?, hrun]
  rfl

variable {whole fraction : List Char}

theorem digits?_point (hwhole : IsDigits whole) (fraction : List Char) :
    digits? (whole ++ '.' :: fraction) = some whole := by
  refine digits?_run hwhole ?_
  intro c hc
  cases hc
  decide

/-- A number with a fraction is a token. -/
theorem lexeme?_decimal (hwhole : IsDigits whole) (hfraction : IsDigits fraction) :
    lexeme? (whole ++ '.' :: fraction) = some (whole ++ '.' :: fraction) := by
  have hdecimal : decimal? (whole ++ '.' :: fraction) = some (whole ++ '.' :: fraction) := by
    rw [decimal?, digits?_point hwhole, Option.bind_some, List.drop_left, fraction?_run hfraction]
    rfl
  obtain ⟨c, rest, rfl⟩ := List.exists_cons_of_ne_nil hwhole.1
  have hdigit : isDigit c = true := List.all_eq_true.1 hwhole.2 c (.head _)
  rw [List.cons_append] at hdecimal ⊢
  rw [lexeme?_of_not_mark (not_mark_of_isWordChar (isWordChar_of_isDigit hdigit)), hdecimal]
  rfl

/-- So it is with a minus sign. -/
theorem lexeme?_minus_decimal (hwhole : IsDigits whole) (hfraction : IsDigits fraction) :
    lexeme? ('-' :: (whole ++ '.' :: fraction)) = some ('-' :: (whole ++ '.' :: fraction)) := by
  have hsigned : signed? ('-' :: (whole ++ '.' :: fraction)) =
      some ('-' :: (whole ++ '.' :: fraction)) := by
    rw [signed?, digits?_point hwhole, Option.map_some, List.drop_left, fraction?_run hfraction]
    rfl
  rw [lexeme?_of_ne_quote (by simp), doubleSymbol?_of_not_mem (by simp), hsigned]
  rfl

end Token

namespace Numeral

variable {n : Numeral}

theorem text_of_fraction (hexponent : n.exponent = none) (hfraction : n.fraction ≠ []) :
    n.text = (if n.negative then ['-'] else []) ++ (n.whole ++ '.' :: n.fraction) := by
  simp [text, hexponent, hfraction]

theorem IsJson.whole_ne_nil (h : n.IsJson) : n.whole ≠ [] := by
  intro hnil
  have hleading := h.leading
  rw [hnil] at hleading
  cases hleading

/-- A numeral with digits after the point is one token. -/
theorem IsJson.cuts_text (h : n.IsJson) (hexponent : n.exponent = none)
    (hfraction : n.fraction ≠ []) : Token.lexicon.Cuts n.text [n.text] := by
  have hdigits : Token.IsDigits n.whole := ⟨h.whole_ne_nil, Text.all_isDigit h.whole⟩
  have hplaces : Token.IsDigits n.fraction := ⟨hfraction, Text.all_isDigit h.fraction⟩
  have hlexeme : Token.lexeme? n.text = some n.text := by
    rw [text_of_fraction hexponent hfraction]
    cases n.negative with
    | true => exact Token.lexeme?_minus_decimal hdigits hplaces
    | false => exact Token.lexeme?_decimal hdigits hplaces
  obtain ⟨c, rest, htext, hc⟩ := h.text_eq_cons
  have hblank : Text.isBlank c = false := by
    rcases hc with rfl | hdigit
    · decide
    · have hword := Text.isWordChar_of_isDigit (Text.isDigit_of_isDigit hdigit)
      exact Text.isBlank_of_isWordChar hword
  rw [htext] at hlexeme ⊢
  exact .single hblank hlexeme

/-- It stands for the number nearest to it. -/
theorem IsJson.ofToken_text (h : n.IsJson) (hexponent : n.exponent = none)
    (hfraction : n.fraction ≠ []) {x : Binary64}
    (hx : Binary64.nearest n.negative (digitsValue (n.whole ++ n.fraction))
      (10 ^ n.fraction.length) = x) (hfinite : x.isFinite = true) :
    Literal.ofToken (String.ofList n.text) = .ok (.float x) := by
  have hdigits : isDigits (n.whole ++ n.fraction) = true := by
    simp [isDigits, h.whole, h.fraction, hfraction]
  have hform : Literal.IsDecimal (String.ofList n.text) n.negative n.whole n.fraction := by
    refine .of_isDigits ?_ hdigits
    rw [String.toList_ofList, text_of_fraction hexponent hfraction]
  rw [hform.ofToken, ← digitsValue_eq, hx]
  exact if_pos hfinite

end Numeral

/-- A moderate number is legible. -/
theorem Value.IsLegible.float {x : Binary64} (hfinite : x.isFinite = true) (h : x.IsModerate) :
    (Value.float x).IsLegible := by
  have hjson := Binary64.isJson_numeral .rule x
  have hexponent := (Binary64.exponent_numeral_eq_none_iff hfinite).2 h
  have hfraction : (x.numeral .rule).fraction ≠ [] :=
    (Binary64.isFloat_numeral .rule x).resolve_right fun hne => hne hexponent
  have hdisplay : (Value.float x).display = String.ofList (x.numeral .rule).text := by
    rw [Value.display, Binary64.text, if_pos hfinite]
  constructor
  · rw [hdisplay, String.toList_ofList]
    exact hjson.cuts_text hexponent hfraction
  · rw [hdisplay]
    refine hjson.ofToken_text hexponent hfraction ?_ hfinite
    rw [Binary64.negative_numeral]
    exact h.nearest_numeral hfinite

/-! ## Letters -/

namespace Text.Lexicon

/-- The lexemes of a text have all its characters but separators. -/
theorem Cuts.count_eq {l : Lexicon} {text : List Char} {lexemes : List (List Char)}
    (h : l.Cuts text lexemes) {c : Char} (hc : l.isSeparator c = false) :
    text.count c = (lexemes.map (List.count c)).sum := by
  induction h with
  | nil => rfl
  | @separator d rest lexemes hd _ ih =>
      have hne : d ≠ c := by
        rintro rfl
        rw [hc] at hd
        cases hd
      rw [List.count_cons_of_ne hne, ih]
  | lexeme _ _ _ ih =>
      rw [← List.cons_append, List.count_append, ih, List.map_cons, List.sum_cons]

end Text.Lexicon

/-- How many letters `e` a text has. -/
def letters (text : String) : Nat := text.toList.count 'e'

@[simp] theorem letters_append (s t : String) : letters (s ++ t) = letters s + letters t := by
  simp [letters]

@[simp] theorem letters_keyword (op : LogicalOp) : letters op.keyword = 0 := by
  cases op <;> decide

@[simp] theorem letters_symbol (c : Comparator) : letters c.symbol = 0 := by
  cases c <;> decide

/-- How many letters `e` tokens have. -/
def Token.letters (tokens : List Token) : Nat := (tokens.map Rulebook.letters).sum

@[simp] theorem Token.letters_nil : letters [] = 0 := rfl

@[simp] theorem Token.letters_cons (token : Token) (tokens : List Token) :
    letters (token :: tokens) = Rulebook.letters token + letters tokens := by
  simp [letters]

@[simp] theorem Token.letters_append (tokens others : List Token) :
    letters (tokens ++ others) = letters tokens + letters others := by
  simp [letters]

/-- How many letters `e` a value has, if it is a text. -/
def Value.letters : Value → Nat
  | .text s => Rulebook.letters s
  | .int _ => 0
  | .float _ => 0

/-- How many letters `e` a value has in its display, if it is a number. -/
def Value.powers : Value → Nat
  | .float x => x.text.count 'e'
  | .int _ => 0
  | .text _ => 0

/-- How many letters `e` the names and the texts of a rule have. -/
def Tree.letters : Tree → Nat
  | leaf c => Rulebook.letters c.field + c.literal.letters
  | operator _ left right => left.letters + right.letters

/-! ### The letters of tokens -/

theorem count_of_all_isDigit {w : List Char} (h : w.all Char.isDigit = true) : w.count 'e' = 0 :=
  List.count_eq_zero.2 fun hmem => absurd (List.all_eq_true.1 h 'e' hmem) (by decide)

theorem Numeral.count_splitMinus (text : List Char) :
    text.count 'e' = (splitMinus text).2.count 'e' := by
  unfold splitMinus
  split <;> simp

namespace Literal

theorem count_unquoted? {text inner : List Char} (h : unquoted? text = some inner) :
    text.count 'e' = inner.count 'e' := by
  rw [unquoted?_eq_some_iff.1 h]
  simp

theorem count_decimalParts? {text : List Char} {parts : List Char × List Char}
    (h : decimalParts? text = some parts) : text.count 'e' = 0 := by
  obtain ⟨rfl, hdigits⟩ := eq_point_of_decimalParts? h
  have hcount := count_of_all_isDigit (Numeral.all_isDigit_of_isDigits hdigits)
  rwa [List.count_append] at hcount ⊢

/-- A token that stands for a text has the letters of this text, and no token of a number has
letters. -/
theorem letters_of_ofToken {token : Token} {v : Value} (h : ofToken token = .ok v) :
    Rulebook.letters token = v.letters := by
  rw [Rulebook.letters]
  cases standsFor_of_ofToken h with
  | quoted hinner =>
      rw [Value.letters, Rulebook.letters, String.toList_ofList, count_unquoted? hinner]
  | int hdigits =>
      rw [Numeral.isDigits, Bool.and_eq_true] at hdigits
      rw [Numeral.count_splitMinus, count_of_all_isDigit hdigits.2, Value.letters]
  | float hparts _ => rw [Numeral.count_splitMinus, count_decimalParts? hparts, Value.letters]
  | word _ => rfl

end Literal

mutual

/-- The tokens of a rule have the letters of its names and its texts. -/
theorem IsRule.letters : ∀ {tokens : List Token} {tree : Tree}, IsRule tokens tree →
    Token.letters tokens = tree.letters
  | _, _, .term ht => ht.letters
  | _, _, .join hl hr => by
      simp [Tree.letters, hl.letters, hr.letters]

theorem IsTerm.letters : ∀ {tokens : List Token} {tree : Tree}, IsTerm tokens tree →
    Token.letters tokens = tree.letters
  | _, _, .condition _ hl => by
      simp [Tree.letters, Literal.letters_of_ofToken hl]
  | _, _, .parentheses hr => by
      have hopen : Rulebook.letters "(" = 0 := by decide
      have hclose : Rulebook.letters ")" = 0 := by decide
      simp [hopen, hclose, hr.letters]

end

/-! ### The letters of displays -/

theorem Value.letters_display (v : Value) : Rulebook.letters v.display = v.letters + v.powers := by
  cases v with
  | int i =>
      have hdigits := count_of_all_isDigit (Numeral.all_isDigit_toDigits i.toInt.natAbs)
      have htext : (Numeral.ofInt i.toInt).text.count 'e' = 0 := by
        rw [Numeral.text_ofInt, List.count_append, hdigits]
        split <;> decide
      rw [display, Rulebook.letters, String.toList_ofList, htext]
      rfl
  | float x => rw [display, Rulebook.letters, String.toList_ofList, letters, powers, Nat.zero_add]
  | text s =>
      have hquote : Rulebook.letters "'" = 0 := by decide
      simp [display, hquote, letters, powers]

/-- The display of a rule has those of its names and its texts, and those of its powers of
ten. -/
theorem Tree.letters_display (tree : Tree) :
    Rulebook.letters tree.display = tree.letters + (tree.literals.map Value.powers).sum := by
  have hspace : Rulebook.letters " " = 0 := by decide
  have hopen : Rulebook.letters "(" = 0 := by decide
  have hclose : Rulebook.letters ")" = 0 := by decide
  induction tree with
  | leaf c =>
      simp [display, Condition.display, hspace, Value.letters_display, letters, literals]
      omega
  | operator op left right ihleft ihright =>
      simp [display, hspace, hopen, hclose, ihleft, ihright, letters, literals]
      omega

/-! ## Rules that are read back -/

/-- A number that is not moderate is written as a power of ten. -/
theorem Binary64.isModerate_of_count {x : Binary64} (hfinite : x.isFinite = true)
    (h : x.text.count 'e' = 0) : x.IsModerate := by
  rw [← exponent_numeral_eq_none_iff hfinite]
  rw [text, if_pos hfinite, Numeral.text, List.count_append] at h
  cases hexponent : (x.numeral .rule).exponent with
  | none => rfl
  | some e => simp [hexponent, Exponent.text] at h

/-- A floating-point number is read back exactly if it is moderate. -/
theorem Value.isLegible_float_iff {x : Binary64} (hfinite : x.isFinite = true) :
    (Value.float x).IsLegible ↔ x.IsModerate := by
  refine ⟨fun h => ?_, fun h => .float hfinite h⟩
  have hdisplay := Value.letters_display (.float x)
  rw [Literal.letters_of_ofToken h.ofToken, letters, Nat.zero_add] at hdisplay
  exact Binary64.isModerate_of_count hfinite hdisplay.symm

namespace Tree

theorem isModerate_of_parse_display {tree : Tree} (h : parse tree.display = .ok tree)
    {x : Binary64} (hfinite : x.isFinite = true) (hx : .float x ∈ tree.literals) :
    x.IsModerate := by
  obtain ⟨tokens, hscan, hread⟩ := parse_eq_ok_iff.1 h
  have hletter : Token.lexicon.isSeparator 'e' = false := by decide
  have hcount := (Token.scan_eq_ok_iff.1 hscan).count_eq hletter
  have hletters : Rulebook.letters tree.display = Token.letters tokens := by
    rw [Rulebook.letters, hcount, List.map_map]
    rfl
  rw [letters_display, (isRule_of_ofTokens hread).1.letters, Nat.add_eq_left,
    List.sum_eq_zero_iff] at hletters
  exact Binary64.isModerate_of_count hfinite (hletters _ (List.mem_map_of_mem hx))

/-- The rule of a text is read back from its display exactly if its floating-point numbers, all
of which are finite, are zero or from `0.0001` to below `10 ^ 16` in size.  These are the ones
that display as one token which stands for them. -/
theorem parse_display_iff {text : String} {tree : Tree} (h : parse text = .ok tree) :
    (parse tree.display = .ok tree ↔ ∀ x, .float x ∈ tree.literals → x.IsModerate) ∧
      ∀ x, .float x ∈ tree.literals → x.isFinite = true ∧
        (Token.scan (Value.float x).display = .ok [(Value.float x).display] ∧
          Literal.ofToken (Value.float x).display = .ok (.float x) ↔ x.IsModerate) := by
  have hformed := isWellFormed_of_parse h
  have hfinite (x : Binary64) (hx : .float x ∈ tree.literals) : x.isFinite = true :=
    hformed.isExpressible (.float x) hx
  refine ⟨⟨?_, ?_⟩, ?_⟩
  · intro hback x hx
    exact isModerate_of_parse_display hback (hfinite x hx) hx
  · intro hmoderate
    refine (isLegible_of_forall ?_ ?_).parse_eq_ok hformed.depth_le
    · intro field hfield
      exact ⟨hformed.isFieldName field hfield, (hformed.isWord field hfield).scan⟩
    · intro v hv
      cases v with
      | int i => exact .int i
      | float x => exact .float (hfinite x hv) (hmoderate x hv)
      | text s => exact .text (hformed.isExpressible (.text s) hv)
  · intro x hx
    refine ⟨hfinite x hx, ?_⟩
    rw [← Value.isLegible_float_iff (hfinite x hx), Token.scan_eq_ok_iff]
    exact ⟨fun hback => ⟨hback.1, hback.2⟩, fun hlegible => ⟨hlegible.1, hlegible.2⟩⟩

/-- A number that has no finite binary expansion, one with a sign, and the least moderate one. -/
theorem parse_display_iff_three :
    let text := "a > 0.1 OR b = -1234567.5 AND c < 0.0001"
    let tree : Tree := .operator .and
      (.operator .or (.leaf ⟨"a", .greater, .float (.ofBits 0x3FB999999999999A)⟩)
        (.leaf ⟨"b", .equal, .float (.ofBits 0xC132D68780000000)⟩))
      (.leaf ⟨"c", .less, .float (.ofBits 0x3F1A36E2EB1C432D)⟩)
    parse text = .ok tree ∧ parse tree.display = .ok tree := by
  intro text tree
  have hparse : parse text = .ok tree := by decide +kernel
  refine ⟨hparse, (parse_display_iff hparse).1.2 ?_⟩
  intro x hx
  simp only [tree, literals, List.mem_append, List.mem_singleton, Value.float.injEq] at hx
  rcases hx with (rfl | rfl) | rfl <;> decide +kernel

/-- The power `10 ^ 16` is displayed as a word, which is read as a text. -/
theorem reads_number_as_text :
    let tree : Tree := .leaf ⟨"a", .greater, .float (.ofBits 0x4341C37937E08000)⟩
    parse "a > 10000000000000000.0" = .ok tree ∧ tree.display = "a > 1e16" ∧
      parse tree.display = .ok (.leaf ⟨"a", .greater, .text "1e16"⟩) := by
  decide +kernel

end Tree

end Rulebook
