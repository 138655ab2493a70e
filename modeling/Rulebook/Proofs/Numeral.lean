import Mathlib.Tactic.IntervalCases
import Rulebook.Json.Number
import Rulebook.Proofs.Text.Lexeme

/-!
# Numerals by the grammar of JSON

A numeral is one of JSON if it has digits where digits must stand and no zero before other
digits (`Numeral.IsJson`).  Such a numeral is read back as it is written
(`Numeral.ofJson?_text`).  Integers have such numerals (`Numeral.isJson_ofInt`).
-/

namespace Rulebook.Numeral

/-! ## Digits -/

theorem ne_of_isDigit {c d : Char} (hc : c.isDigit = true) (hd : d.isDigit = false) :
    c ≠ d := by
  rintro rfl
  rw [hc] at hd
  cases hd

theorem all_isDigit_toDigits (n : Nat) : (Nat.toDigits 10 n).all Char.isDigit = true := by
  rw [List.all_eq_true]
  intro c hc
  exact Nat.isDigit_of_mem_toDigits (by decide) (by decide) hc

theorem isDigits_toDigits (n : Nat) : isDigits (Nat.toDigits 10 n) = true := by
  rw [isDigits, all_isDigit_toDigits, Bool.and_true, Bool.not_eq_true',
    List.isEmpty_eq_false_iff]
  exact Nat.toDigits_ne_nil

/-- The digits of a number that is not zero start with another digit than zero. -/
theorem toDigits_eq_cons {n : Nat} (h : 0 < n) :
    ∃ c rest, Nat.toDigits 10 n = c :: rest ∧ c ≠ '0' := by
  induction n using Nat.base_induction 10 (by decide) with
  | single m hm =>
      refine ⟨m.digitChar, [], Nat.toDigits_of_lt_base hm, ?_⟩
      interval_cases m <;> decide
  | digit m k hk hm ih =>
      obtain ⟨c, rest, hc, hne⟩ := ih hm
      refine ⟨c, rest ++ Nat.toDigits 10 k, ?_, hne⟩
      rw [← Nat.toDigits_append_toDigits (by decide) hm hk, hc, List.cons_append]

theorem isWhole_toDigits (n : Nat) : isWhole (Nat.toDigits 10 n) = true := by
  cases n with
  | zero => rfl
  | succ n =>
      obtain ⟨c, rest, hc, hne⟩ := toDigits_eq_cons (Nat.succ_pos n)
      rw [hc, isWhole, bne_iff_ne.2 hne, Bool.true_or]

/-! ## Reading what has been written -/

/-- A numeral is one of JSON. -/
structure IsJson (n : Numeral) : Prop where
  /-- Digits stand before the point. -/
  whole : n.whole.all Char.isDigit = true
  /-- There is one, and a leading zero stands alone. -/
  leading : isWhole n.whole = true
  /-- Digits stand after the point. -/
  fraction : n.fraction.all Char.isDigit = true
  /-- A power of ten has digits. -/
  exponent : ∀ e ∈ n.exponent, isDigits e.digits = true

theorem isJson_ofInt (i : Int) : (ofInt i).IsJson where
  whole := all_isDigit_toDigits i.natAbs
  leading := isWhole_toDigits i.natAbs
  fraction := rfl
  exponent := by
    intro e he
    cases he

theorem exponent?_text {exponent : Option Exponent}
    (h : ∀ e ∈ exponent, isDigits e.digits = true) :
    exponent? ((exponent.map Exponent.text).getD []) = some exponent := by
  cases exponent with
  | none => rfl
  | some e =>
      obtain ⟨sign, digits⟩ := e
      have hdigits : isDigits digits = true := h _ rfl
      have hsplit : splitSign ((sign.map Sign.char).toList ++ digits) = (sign, digits) := by
        cases sign with
        | some sign => cases sign <;> rfl
        | none =>
            rw [isDigits, Bool.and_eq_true] at hdigits
            cases digits with
            | nil => cases hdigits.1
            | cons d rest =>
                have hd : d.isDigit = true := (List.all_eq_true.1 hdigits.2) d (.head _)
                have hplus : d ≠ '+' := ne_of_isDigit hd (by decide)
                have hminus : d ≠ '-' := ne_of_isDigit hd (by decide)
                simp [splitSign, hplus, hminus]
      simp [Exponent.text, exponent?, hsplit, hdigits]

theorem eq_of_mem_head_exponent {exponent : Option Exponent} {c : Char}
    (hc : c ∈ ((exponent.map Exponent.text).getD []).head?) : c = 'e' := by
  cases exponent with
  | none => cases hc
  | some e =>
      cases hc
      rfl

theorem splitFraction?_text {fraction tail : List Char}
    (h : fraction.all Char.isDigit = true) (ht : ∀ c ∈ tail.head?, c = 'e') :
    splitFraction? ((if fraction.isEmpty then [] else '.' :: fraction) ++ tail) =
      some (fraction, tail) := by
  cases fraction with
  | nil =>
      rw [List.isEmpty_nil, if_pos rfl, List.nil_append]
      cases tail with
      | nil => rfl
      | cons c rest =>
          obtain rfl : c = 'e' := ht c rfl
          rfl
  | cons d rest =>
      have hdigit : ∀ c ∈ tail.head?, c.isDigit = false := by
        intro c hc
        rw [ht c hc]
        rfl
      rw [List.isEmpty_cons, if_neg Bool.false_ne_true, List.cons_append, splitFraction?,
        Text.takeWhile_run h hdigit, Text.dropWhile_run h hdigit]
      rfl

theorem splitMinus_of_head {negative : Bool} {text : List Char} (h : '-' ∉ text.head?) :
    splitMinus ((if negative then ['-'] else []) ++ text) = (negative, text) := by
  cases negative with
  | true => rfl
  | false =>
      cases text with
      | nil => rfl
      | cons c rest =>
          have hc : c ≠ '-' := by
            rintro rfl
            exact h rfl
          simp [splitMinus, hc]

theorem splitMinus_run {negative : Bool} {whole rest : List Char}
    (h : whole.all Char.isDigit = true) (hne : isWhole whole = true) :
    splitMinus ((if negative then ['-'] else []) ++ (whole ++ rest)) =
      (negative, whole ++ rest) := by
  refine splitMinus_of_head fun hminus => ?_
  cases whole with
  | nil => cases hne
  | cons d digits =>
      obtain rfl : d = '-' := Option.some.inj hminus
      cases List.all_eq_true.1 h '-' (.head _)

/-- A numeral starts with a minus sign or a digit. -/
theorem IsJson.text_eq_cons {n : Numeral} (h : n.IsJson) :
    ∃ c rest, n.text = c :: rest ∧ (c = '-' ∨ c.isDigit = true) := by
  obtain ⟨negative, whole, fraction, exponent⟩ := n
  cases negative with
  | true => exact ⟨'-', _, rfl, .inl rfl⟩
  | false =>
      cases whole with
      | nil => cases h.leading
      | cons d digits => exact ⟨d, _, rfl, .inr (List.all_eq_true.1 h.whole d (.head _))⟩

/-- A numeral of JSON is read back as it is written. -/
theorem ofJson?_text {n : Numeral} (h : n.IsJson) : ofJson? n.text = some n := by
  obtain ⟨negative, whole, fraction, exponent⟩ := n
  obtain ⟨hwhole, hleading, hfraction, hexponent⟩ := h
  let point := if fraction.isEmpty then [] else '.' :: fraction
  let tail := (exponent.map Exponent.text).getD []
  have hpoint : splitFraction? (point ++ tail) = some (fraction, tail) :=
    splitFraction?_text hfraction fun _ => eq_of_mem_head_exponent
  have hhead : ∀ c ∈ (point ++ tail).head?, c.isDigit = false := by
    intro c hc
    by_cases hempty : fraction.isEmpty = true
    · rw [show point = [] from if_pos hempty] at hc
      rw [eq_of_mem_head_exponent hc]
      rfl
    · rw [show point = '.' :: fraction from if_neg hempty] at hc
      cases hc
      rfl
  have htext : text ⟨negative, whole, fraction, exponent⟩ =
      (if negative then ['-'] else []) ++ (whole ++ (point ++ tail)) := by
    simp only [text, List.append_assoc, point, tail]
  simp only [ofJson?, htext, splitMinus_run hwhole hleading, Text.takeWhile_run hwhole hhead,
    Text.dropWhile_run hwhole hhead, hleading, hpoint, exponent?_text hexponent, if_true,
    Option.map_some, tail]

end Rulebook.Numeral
