import Mathlib.Data.List.Induction
import Mathlib.Data.List.TakeWhile
import Mathlib.Data.Nat.Digits.Defs
import Rulebook.Proofs.Numeral
import Rulebook.Proofs.Rule.Reading

/-!
# Which value a token stands for

The kind of a value shows in the form of its token: between quotes, a symbol, digits
(`Literal.IsInteger`), digits with one point (`Literal.IsDecimal`), and everything else.  The
forms exclude each other by their first characters and by the point, so the order in which they
are tried does not matter (`Literal.ofToken_by_form`).

Digits with a point are always read as a number (`Binary64.ofText?_point`): they are a small
part of what can be read, and nothing of them is left over.
-/

namespace Rulebook

/-! ## Digits -/

namespace Numeral

theorem isDigits_iff {text : List Char} :
    isDigits text = true ↔ text ≠ [] ∧ ∀ c ∈ text, '0' ≤ c ∧ c ≤ '9' := by
  simp only [isDigits, Bool.and_eq_true, Bool.not_eq_true', List.isEmpty_eq_false_iff,
    List.all_eq_true, Char.isDigit, decide_eq_true_eq, ge_iff_le, Char.le_def]

theorem all_isDigit_of_isDigits {text : List Char} (h : isDigits text = true) :
    text.all Char.isDigit = true := by
  rw [isDigits, Bool.and_eq_true] at h
  exact h.2

/-- The number that decimal digits write: the sum of the digits, each times its power of ten. -/
def decimal (digits : List Char) : Nat :=
  Nat.ofDigits 10 (digits.reverse.map fun c => c.toNat - '0'.toNat)

theorem digitsValue_eq (digits : List Char) : digitsValue digits = decimal digits := by
  rw [digitsValue, decimal]
  induction digits using List.reverseRecOn with
  | nil => rfl
  | append_singleton digits c ih =>
      rw [Nat.ofDigitChars_append, ih, Nat.ofDigitChars_cons, Nat.ofDigitChars_nil,
        List.reverse_concat, List.map_cons, Nat.ofDigits_cons, Nat.add_comm]

end Numeral

theorem Value.exists_ofInt?_eq_some {i : Int} (h : -2 ^ 63 ≤ i ∧ i ≤ 2 ^ 63 - 1) :
    ∃ j : Int64, j.toInt = i ∧ Value.ofInt? i = some (.int j) :=
  ⟨.ofInt i, Int64.toInt_ofInt_of_le h.1 (Int.lt_of_le_sub_one h.2), if_pos h⟩

theorem Value.ofInt?_eq_none {i : Int} (h : ¬ (-2 ^ 63 ≤ i ∧ i ≤ 2 ^ 63 - 1)) :
    Value.ofInt? i = none :=
  if_neg h

/-! ## Signs -/

namespace Numeral

theorem append_splitMinus (text : List Char) :
    (if (splitMinus text).1 then ['-'] else []) ++ (splitMinus text).2 = text := by
  unfold splitMinus
  split <;> rfl

/-- Whether a number without sign can start with a character. -/
def isStart (c : Char) : Bool := c == '.' || c.isDigit

theorem isStart_of_isDigit {c : Char} (h : c.isDigit = true) : isStart c = true := by
  rw [isStart, h, Bool.or_true]

theorem isStart_of_mem_head? {whole fraction : List Char} (h : whole.all Char.isDigit = true) :
    ∀ c ∈ (whole ++ '.' :: fraction).head?, isStart c = true := by
  intro c hc
  cases whole with
  | nil =>
      cases hc
      rfl
  | cons d rest =>
      obtain rfl : d = c := Option.some.inj hc
      exact isStart_of_isDigit (List.all_eq_true.1 h _ (.head _))

theorem splitSign_of_start {negative : Bool} {text : List Char}
    (h : ∀ c ∈ text.head?, isStart c = true) :
    splitSign ((if negative then ['-'] else []) ++ text) =
      (if negative then some .minus else none, text) := by
  cases negative with
  | true => rfl
  | false =>
      cases text with
      | nil => rfl
      | cons c rest =>
          have hc := h c rfl
          have hplus : c ≠ '+' := by rintro rfl; cases hc
          have hminus : c ≠ '-' := by rintro rfl; cases hc
          simp [splitSign, hplus, hminus]

theorem toLower_of_isStart {c : Char} (h : isStart c = true) : c.toLower = c := by
  have hsmall : c.val < 'A'.val := by
    rw [isStart, Bool.or_eq_true, beq_iff_eq, Char.isDigit, Bool.and_eq_true, decide_eq_true_eq,
      decide_eq_true_eq] at h
    rcases h with rfl | ⟨-, hnine⟩
    · decide
    · exact UInt32.lt_of_le_of_lt hnine (by decide)
  exact dif_neg fun hupper => UInt32.not_le.2 hsmall hupper.1

/-- No name starts as a number does. -/
theorem map_toLower_ne {text : List Char} (h : ∀ c ∈ text.head?, isStart c = true) {c : Char}
    (hc : isStart c = false) (name : List Char) : text.map Char.toLower ≠ c :: name := by
  intro heq
  obtain ⟨d, rest, rfl, rfl, -⟩ := List.map_eq_cons_iff.1 heq
  have hd : isStart d = true := h d rfl
  rw [toLower_of_isStart hd, hd] at hc
  cases hc

end Numeral

/-! ## Digits with a point -/

namespace Binary64

/-- A text that starts as a number does is read as one. -/
theorem ofText?_of_start {negative : Bool} {text : List Char}
    (h : ∀ c ∈ text.head?, Numeral.isStart c = true) :
    ofText? ((if negative then ['-'] else []) ++ text) = ofUnsigned? negative text := by
  have hinf : text.map Char.toLower ≠ "inf".toList := Numeral.map_toLower_ne h rfl _
  have hinfinity : text.map Char.toLower ≠ "infinity".toList := Numeral.map_toLower_ne h rfl _
  have hnan : text.map Char.toLower ≠ "nan".toList := Numeral.map_toLower_ne h rfl _
  -- the sign is known, and the names start with letters
  simp only [ofText?, Numeral.splitSign_of_start h, hinf, hinfinity, hnan, or_self, if_false]
  cases negative <;> rfl

/-- Digits with a point among or beside them are read as the nearest number. -/
theorem ofText?_point {negative : Bool} {whole fraction : List Char}
    (h : Numeral.isDigits (whole ++ fraction) = true) :
    ofText? ((if negative then ['-'] else []) ++ (whole ++ '.' :: fraction)) =
      some (nearest negative (Numeral.digitsValue (whole ++ fraction))
        (10 ^ fraction.length)) := by
  obtain ⟨hwhole, hfraction⟩ :
      whole.all Char.isDigit = true ∧ fraction.all Char.isDigit = true := by
    simpa using Numeral.all_isDigit_of_isDigits h
  have hpoint : ∀ c ∈ ('.' :: fraction).head?, c.isDigit = false := by
    rintro c ⟨⟩
    rfl
  have hplaces : Numeral.splitPlaces ('.' :: fraction) = (fraction, []) := by
    rw [Numeral.splitPlaces, List.takeWhile_eq_self_iff.2 (List.all_eq_true.1 hfraction),
      List.dropWhile_eq_nil_iff.2 (List.all_eq_true.1 hfraction)]
  have hpower : (0 : Int) - fraction.length = -fraction.length := Int.zero_sub _
  rw [ofText?_of_start (Numeral.isStart_of_mem_head? hwhole)]
  simp only [ofUnsigned?, Text.takeWhile_run hwhole hpoint, Text.dropWhile_run hwhole hpoint,
    hplaces, h, if_true, Numeral.exponent?, Option.map_some, Json.exponentValue, ofDecimal, hpower,
    Int.neg_neg, Int.toNat_natCast, Int.toNat_neg_natCast]
  rw [show Nat.pow 10 0 = 1 from rfl, Nat.mul_one]
  rfl

end Binary64

/-! ## The forms of tokens -/

namespace Literal

/-- One or more digits behind a minus sign or none. -/
structure IsInteger (token : Token) (negative : Bool) (digits : List Char) : Prop where
  /-- The token is the sign and the digits. -/
  toList_eq : token.toList = (if negative then ['-'] else []) ++ digits
  /-- There is a digit. -/
  ne_nil : digits ≠ []
  /-- All of them are digits. -/
  isDigit : ∀ c ∈ digits, '0' ≤ c ∧ c ≤ '9'

/-- One or more digits, with one point among or beside them, behind a minus sign or none. -/
structure IsDecimal (token : Token) (negative : Bool) (whole fraction : List Char) : Prop where
  /-- The token is the sign, the digits before the point, the point and the digits after it. -/
  toList_eq : token.toList = (if negative then ['-'] else []) ++ (whole ++ '.' :: fraction)
  /-- There is a digit. -/
  ne_nil : whole ++ fraction ≠ []
  /-- All of them are digits. -/
  isDigit : ∀ c ∈ whole ++ fraction, '0' ≤ c ∧ c ≤ '9'

theorem IsInteger.of_isDigits {token : Token} {negative : Bool} {digits : List Char}
    (htoken : token.toList = (if negative then ['-'] else []) ++ digits)
    (h : Numeral.isDigits digits = true) : IsInteger token negative digits := by
  obtain ⟨hne, hdigit⟩ := Numeral.isDigits_iff.1 h
  exact ⟨htoken, hne, hdigit⟩

theorem IsDecimal.of_isDigits {token : Token} {negative : Bool} {whole fraction : List Char}
    (htoken : token.toList = (if negative then ['-'] else []) ++ (whole ++ '.' :: fraction))
    (h : Numeral.isDigits (whole ++ fraction) = true) :
    IsDecimal token negative whole fraction := by
  obtain ⟨hne, hdigit⟩ := Numeral.isDigits_iff.1 h
  exact ⟨htoken, hne, hdigit⟩

theorem unquoted?_eq_some_iff {text inner : List Char} :
    unquoted? text = some inner ↔ text = '\'' :: (inner ++ ['\'']) := by
  constructor
  · intro h
    unfold unquoted? at h
    split at h
    next rest =>
      split at h
      next hlast =>
        cases h
        obtain ⟨inner, rfl⟩ := List.getLast?_eq_some_iff.1 hlast
        rw [List.dropLast_concat]
      next => cases h
    next => cases h
  · rintro rfl
    rw [unquoted?, List.getLast?_concat, if_pos rfl, List.dropLast_concat]

theorem decimalParts?_point {whole fraction : List Char}
    (h : Numeral.isDigits (whole ++ fraction) = true) :
    decimalParts? (whole ++ '.' :: fraction) = some (whole, fraction) := by
  have hwhole : whole.all (· != '.') = true := by
    have hall := Numeral.all_isDigit_of_isDigits h
    rw [List.all_append, Bool.and_eq_true, List.all_eq_true] at hall
    rw [List.all_eq_true]
    exact fun c hc => bne_iff_ne.2 (Numeral.ne_of_isDigit (hall.1 c hc) rfl)
  have hpoint : ∀ c ∈ ('.' :: fraction).head?, (c != '.') = false := by
    rintro c ⟨⟩
    rfl
  rw [decimalParts?, splitPoint?, Text.dropWhile_run hwhole hpoint,
    Text.takeWhile_run hwhole hpoint]
  exact if_pos h

theorem eq_point_of_decimalParts? {text whole fraction : List Char}
    (h : decimalParts? text = some (whole, fraction)) :
    text = whole ++ '.' :: fraction ∧ Numeral.isDigits (whole ++ fraction) = true := by
  have hsplit := List.takeWhile_append_dropWhile (p := (· != '.')) (l := text)
  have hhead := List.head?_dropWhile_not (· != '.') text
  rw [decimalParts?, splitPoint?] at h
  cases hrest : text.dropWhile (· != '.') with
  | nil =>
      rw [hrest] at h
      cases h
  | cons c rest =>
      rw [hrest] at h hsplit hhead
      have hc : c = '.' := by simpa using hhead
      simp only at h
      split at h
      next hdigits =>
        cases h
        exact ⟨hc ▸ hsplit.symm, hdigits⟩
      next => cases h

/-! ## The value of each form -/

theorem ofToken_of_quoted (inner : String) : ofToken ("'" ++ inner ++ "'") = .ok (.text inner) := by
  have htext : ("'" ++ inner ++ "'").toList = '\'' :: (inner.toList ++ ['\'']) := by simp
  simp only [ofToken, unquoted?_eq_some_iff.2 htext, String.ofList_toList]

theorem unquoted?_of_symbol {token : Token} (h : token ∈ Token.symbols) :
    unquoted? token.toList = none := by
  have hall : Token.symbols.all (unquoted? ·.toList == none) = true := by decide
  simpa using List.all_eq_true.1 hall token h

theorem ofToken_of_symbol {token : Token} (h : token ∈ Token.symbols) :
    ofToken token = .error (.expectedValue (some token)) := by
  simp only [ofToken, unquoted?_of_symbol h, if_pos h]

/-- A number with or without sign is neither quoted nor a symbol. -/
theorem not_quoted_of_start {token : Token} {negative : Bool} {text : List Char}
    (htoken : token.toList = (if negative then ['-'] else []) ++ text) (hne : text ≠ [])
    (h : ∀ c ∈ text.head?, Numeral.isStart c = true) :
    unquoted? token.toList = none ∧ token ∉ Token.symbols := by
  obtain ⟨c, rest, hcons, hc⟩ :
      ∃ c rest, token.toList = c :: rest ∧ (c == '-' || Numeral.isStart c) = true := by
    cases negative with
    | true => exact ⟨'-', text, htoken, rfl⟩
    | false =>
        obtain ⟨c, rest, rfl⟩ := List.exists_cons_of_ne_nil hne
        exact ⟨c, rest, htoken, by rw [h c rfl, Bool.or_true]⟩
  constructor
  · rw [Option.eq_none_iff_forall_ne_some]
    intro inner hinner
    have hquoted := unquoted?_eq_some_iff.1 hinner
    rw [hcons] at hquoted
    obtain ⟨rfl, -⟩ := List.cons.inj hquoted
    cases hc
  · intro hmem
    have hheads : Token.symbols.all (fun symbol =>
        symbol.toList.head?.all fun d => !(d == '-' || Numeral.isStart d)) = true := by
      decide
    have hhead := List.all_eq_true.1 hheads token hmem
    rw [hcons, List.head?_cons, Option.all_some, hc] at hhead
    cases hhead

theorem splitMinus_of_start {token : Token} {negative : Bool} {text : List Char}
    (htoken : token.toList = (if negative then ['-'] else []) ++ text)
    (h : ∀ c ∈ text.head?, Numeral.isStart c = true) :
    Numeral.splitMinus token.toList = (negative, text) := by
  rw [htoken]
  exact Numeral.splitMinus_of_head fun hminus => absurd (h '-' hminus) (by decide)

/-- Digits are an integer if it fits in 64 bits, and nothing otherwise. -/
theorem IsInteger.ofToken {token : Token} {negative : Bool} {digits : List Char}
    (h : IsInteger token negative digits) :
    let i : Int := if negative then -Numeral.decimal digits else Numeral.decimal digits
    (-2 ^ 63 ≤ i ∧ i ≤ 2 ^ 63 - 1 → ∃ j : Int64, j.toInt = i ∧ ofToken token = .ok (.int j)) ∧
      (¬ (-2 ^ 63 ≤ i ∧ i ≤ 2 ^ 63 - 1) → ofToken token = .error (.integerOutOfRange token)) := by
  intro i
  have hdigits := Numeral.isDigits_iff.2 ⟨h.ne_nil, h.isDigit⟩
  have hstart : ∀ c ∈ digits.head?, Numeral.isStart c = true := by
    intro c hc
    have hall := List.all_eq_true.1 (Numeral.all_isDigit_of_isDigits hdigits)
    exact Numeral.isStart_of_isDigit (hall c (List.mem_of_mem_head? hc))
  obtain ⟨hunquoted, hsymbol⟩ := not_quoted_of_start h.toList_eq h.ne_nil hstart
  simp only [Literal.ofToken, hunquoted, if_neg hsymbol, splitMinus_of_start h.toList_eq hstart,
    hdigits, if_true, Numeral.digitsValue_eq]
  constructor
  · intro hfits
    obtain ⟨j, hj, hvalue⟩ := Value.exists_ofInt?_eq_some hfits
    exact ⟨j, hj, by rw [hvalue]⟩
  · intro hfits
    rw [Value.ofInt?_eq_none hfits]

theorem IsDecimal.ofToken {token : Token} {negative : Bool} {whole fraction : List Char}
    (h : IsDecimal token negative whole fraction) :
    ofToken token =
      let x := Binary64.nearest negative (Numeral.decimal (whole ++ fraction))
        (10 ^ fraction.length)
      if x.isFinite then .ok (.float x) else .error (.decimalOutOfRange token) := by
  have hdigits := Numeral.isDigits_iff.2 ⟨h.ne_nil, h.isDigit⟩
  have hwhole : whole.all Char.isDigit = true := by
    have hall := Numeral.all_isDigit_of_isDigits hdigits
    rw [List.all_append, Bool.and_eq_true] at hall
    exact hall.1
  have hstart : ∀ c ∈ (whole ++ '.' :: fraction).head?, Numeral.isStart c = true :=
    Numeral.isStart_of_mem_head? hwhole
  obtain ⟨hunquoted, hsymbol⟩ := not_quoted_of_start h.toList_eq (by simp) hstart
  have hnot : Numeral.isDigits (whole ++ '.' :: fraction) = false := by
    simp [Numeral.isDigits, show Char.isDigit '.' = false from rfl]
  have htext : Binary64.ofText? token.toList = some (Binary64.nearest negative
      (Numeral.decimal (whole ++ fraction)) (10 ^ fraction.length)) := by
    rw [h.toList_eq, Binary64.ofText?_point hdigits, Numeral.digitsValue_eq]
  simp only [Literal.ofToken, hunquoted, if_neg hsymbol, splitMinus_of_start h.toList_eq hstart,
    hnot, Bool.false_eq_true, if_false, decimalParts?_point hdigits, htext]

/-- A token of no other form stands for itself. -/
theorem ofToken_of_other {token : Token} (hquoted : ∀ inner, token ≠ "'" ++ inner ++ "'")
    (hsymbol : token ∉ Token.symbols)
    (hinteger : ∀ negative digits, ¬ IsInteger token negative digits)
    (hdecimal : ∀ negative whole fraction, ¬ IsDecimal token negative whole fraction) :
    ofToken token = .ok (.text token) := by
  have hsplit := (Numeral.append_splitMinus token.toList).symm
  have hunquoted : unquoted? token.toList = none := by
    rw [Option.eq_none_iff_forall_ne_some]
    intro inner hinner
    refine hquoted (String.ofList inner) (String.toList_injective ?_)
    simpa using unquoted?_eq_some_iff.1 hinner
  have hdigits : Numeral.isDigits (Numeral.splitMinus token.toList).2 = false := by
    rw [Bool.eq_false_iff]
    exact fun hall => hinteger _ _ (.of_isDigits hsplit hall)
  have hparts : decimalParts? (Numeral.splitMinus token.toList).2 = none := by
    rw [Option.eq_none_iff_forall_ne_some]
    rintro ⟨whole, fraction⟩ hsome
    obtain ⟨htext, hall⟩ := eq_point_of_decimalParts? hsome
    rw [htext] at hsplit
    exact hdecimal _ _ _ (.of_isDigits hsplit hall)
  simp only [ofToken, hunquoted, if_neg hsymbol, hdigits, Bool.false_eq_true, if_false, hparts]

end Literal

/-! ## Values in a rule -/

/-- A token that stands for no value, where a value must come, is at fault. -/
theorem Tree.ofTokens_of_faulty_value {before : List Token} {token : Token} {r : Reading}
    {join : Option Join} {field : String} {comparator : Comparator} {fault : RuleFault}
    (hbefore : Reading.start.steps before = .ok r)
    (hvalue : r.progress = .value join field comparator)
    (hfault : Literal.ofToken token = .error fault) (after : List Token) :
    Tree.ofTokens (before ++ token :: after) = .error (.syntaxFault before.length fault) := by
  have hposition : r.position = before.length := (Reading.Accounts.start.steps hbefore).position
  have hstep : r.step token = .error (before.length, fault) := by
    simp only [Reading.step, hvalue, hfault, hposition]
  have hsteps : Reading.start.steps (before ++ token :: after) = .error (before.length, fault) := by
    rw [Reading.steps_append, hbefore]
    simp only [Except.bind, Reading.steps, hstep]
  have hne : (before ++ token :: after).isEmpty = false := by simp
  simp only [Tree.ofTokens, hne, Bool.false_eq_true, if_false, hsteps]

namespace Literal

/-- Digits with a point are never unreadable. -/
theorem ofToken_ne_invalidDecimal (token other : Token) :
    ofToken token ≠ .error (.invalidDecimal other) := by
  intro h
  have hquoted : ∀ inner, token ≠ "'" ++ inner ++ "'" := by
    rintro inner rfl
    rw [ofToken_of_quoted] at h
    cases h
  have hsymbol : token ∉ Token.symbols := by
    intro hmem
    rw [ofToken_of_symbol hmem] at h
    cases h
  have hinteger : ∀ negative digits, ¬ IsInteger token negative digits := by
    intro negative digits hform
    obtain ⟨hfits, hnot⟩ := hform.ofToken
    have hout := hnot fun hlimits => by
      obtain ⟨j, -, hj⟩ := hfits hlimits
      rw [hj] at h
      cases h
    rw [hout] at h
    cases h
  have hdecimal : ∀ negative whole fraction, ¬ IsDecimal token negative whole fraction := by
    intro negative whole fraction hform
    rw [hform.ofToken] at h
    simp only at h
    split at h <;> cases h
  rw [ofToken_of_other hquoted hsymbol hinteger hdecimal] at h
  cases h

/-- A token between quotes stands for the text between them, no symbol stands for a value,
digits stand for their integer if it fits in 64 bits, digits with one point for the number
nearest to them if it is finite, and every other token stands for itself.  Digits with a point
are never unreadable; and where a value must come, a token that stands for none is at fault, at
its position. -/
theorem ofToken_by_form (token : Token) :
    (∀ inner, token = "'" ++ inner ++ "'" → ofToken token = .ok (.text inner)) ∧
    (token ∈ Token.symbols → ofToken token = .error (.expectedValue (some token))) ∧
    (∀ negative digits, IsInteger token negative digits →
      let i : Int := if negative then -Numeral.decimal digits else Numeral.decimal digits
      (-2 ^ 63 ≤ i ∧ i ≤ 2 ^ 63 - 1 → ∃ j : Int64, j.toInt = i ∧ ofToken token = .ok (.int j)) ∧
        (¬ (-2 ^ 63 ≤ i ∧ i ≤ 2 ^ 63 - 1) →
          ofToken token = .error (.integerOutOfRange token))) ∧
    (∀ negative whole fraction, IsDecimal token negative whole fraction →
      let x := Binary64.nearest negative (Numeral.decimal (whole ++ fraction))
        (10 ^ fraction.length)
      ofToken token = if x.isFinite then .ok (.float x) else .error (.decimalOutOfRange token)) ∧
    ((∀ inner, token ≠ "'" ++ inner ++ "'") → token ∉ Token.symbols →
      (∀ negative digits, ¬ IsInteger token negative digits) →
      (∀ negative whole fraction, ¬ IsDecimal token negative whole fraction) →
      ofToken token = .ok (.text token)) ∧
    (∀ other, ofToken token ≠ .error (.invalidDecimal other)) ∧
    ∀ before after r join field comparator fault, Reading.start.steps before = .ok r →
      r.progress = .value join field comparator → ofToken token = .error fault →
      Tree.ofTokens (before ++ token :: after) = .error (.syntaxFault before.length fault) := by
  refine ⟨?_, ofToken_of_symbol, fun _ _ h => h.ofToken, fun _ _ _ h => h.ofToken,
    ofToken_of_other, ofToken_ne_invalidDecimal token, ?_⟩
  · rintro inner rfl
    exact ofToken_of_quoted inner
  · intro before after r join field comparator fault hbefore hvalue hfault
    exact Tree.ofTokens_of_faulty_value hbefore hvalue hfault after

/-- A quoted number, the least integer with leading zeros and the one before it, a point
without digits before it, one quote, and a symbol in place of a value. -/
theorem ofToken_by_form_six :
    ofToken "'42'" = .ok (.text "42") ∧
      ofToken "-009223372036854775808" = .ok (.int Int64.minValue) ∧
      ofToken "-9223372036854775809" =
        .error (.integerOutOfRange "-9223372036854775809") ∧
      ofToken "-.5" = .ok (.float (.nearest true 1 2)) ∧
      ofToken "'" = .ok (.text "'") ∧
      Tree.ofTokens ["a", ">", "<="] =
        .error (.syntaxFault 2 (.expectedValue (some "<="))) := by
  have hleast : IsInteger "-009223372036854775808" true "009223372036854775808".toList :=
    .of_isDigits rfl (by decide +kernel)
  have hbelow : IsInteger "-9223372036854775809" true "9223372036854775809".toList :=
    .of_isDigits rfl (by decide +kernel)
  have hhalf : IsDecimal "-.5" true [] ['5'] := .of_isDigits rfl (by decide)
  obtain ⟨hquoted, -⟩ := ofToken_by_form "'42'"
  obtain ⟨-, -, hinteger, -⟩ := ofToken_by_form "-009223372036854775808"
  obtain ⟨-, -, hinteger', -⟩ := ofToken_by_form "-9223372036854775809"
  obtain ⟨-, -, -, hdecimal, -⟩ := ofToken_by_form "-.5"
  obtain ⟨-, -, -, -, hother, -⟩ := ofToken_by_form "'"
  obtain ⟨-, hsymbol, -, -, -, -, hposition⟩ := ofToken_by_form "<="
  refine ⟨hquoted "42" rfl, ?_, ?_, ?_, ?_, ?_⟩
  · obtain ⟨j, hj, hvalue⟩ := (hinteger _ _ hleast).1 (by decide +kernel)
    obtain rfl : j = Int64.minValue := Int64.toInt_inj.1 (hj.trans (by decide +kernel))
    exact hvalue
  · exact (hinteger' _ _ hbelow).2 (by decide +kernel)
  · have hnearest : Binary64.nearest true (Numeral.decimal ['5']) 10 = .nearest true 1 2 := by
      decide +kernel
    have hfinite : (Binary64.nearest true 1 2).isFinite = true := by decide +kernel
    refine (hdecimal _ _ _ hhalf).trans ?_
    simp only [List.nil_append, List.length_singleton, Nat.pow_one, hnearest, hfinite, if_true]
  · refine hother ?_ (by decide) ?_ ?_
    · intro inner heq
      have hlength := congrArg String.length heq
      simp at hlength
    · rintro negative digits ⟨htext, -, hdigit⟩
      cases negative with
      | true => exact absurd (List.cons.inj htext).1 (by decide)
      | false =>
          obtain rfl : ['\''] = digits := htext
          exact absurd (hdigit '\'' (.head _)) (by decide)
    · rintro negative whole fraction ⟨htext, -, -⟩
      have hpoint : '.' ∈ "'".toList := by
        rw [htext]
        simp
      exact absurd hpoint (by decide)
  · exact hposition ["a", ">"] [] _ _ _ _ _ rfl rfl (hsymbol (by decide))

end Literal

end Rulebook
