import Rulebook.Text.Lexeme

/-!
# Cutting texts

How a run of characters is taken off a text (`takeWhile_run`), how a text that starts with a
lexeme is cut (`Lexicon.cutFrom_lexeme`), and which texts have no lexeme at all
(`Lexicon.cut_eq_nil_iff`).
-/

namespace Rulebook.Text

/-- How many bytes of UTF-8 characters take. -/
def utf8Length : List Char → Nat
  | [] => 0
  | c :: rest => c.utf8Size + utf8Length rest

theorem utf8Length_append (first second : List Char) :
    utf8Length (first ++ second) = utf8Length first + utf8Length second := by
  induction first with
  | nil => simp [utf8Length]
  | cons c rest ih => simp only [List.cons_append, utf8Length, ih, Nat.add_assoc]

theorem utf8ByteSize_ofList (text : List Char) :
    (String.ofList text).utf8ByteSize = utf8Length text := by
  induction text with
  | nil => simp [utf8Length]
  | cons c rest ih =>
      rw [String.ofList_cons, String.utf8ByteSize_append, String.utf8ByteSize_singleton, ih,
        utf8Length]

/-- A run of characters is taken whole where the text goes on with another one. -/
theorem takeWhile_run {p : Char → Bool} {run rest : List Char} (h : run.all p = true)
    (hrest : ∀ c ∈ rest.head?, p c = false) : (run ++ rest).takeWhile p = run := by
  rw [List.takeWhile_append_of_pos (List.all_eq_true.1 h)]
  cases rest with
  | nil => exact List.append_nil run
  | cons c rest => simp [hrest c rfl]

/-- What follows a text adds nothing to the run at its start, if it does not go on with the
run. -/
theorem takeWhile_append_of_head {p : Char → Bool} (text : List Char) {rest : List Char}
    (hrest : ∀ c ∈ rest.head?, p c = false) :
    (text ++ rest).takeWhile p = text.takeWhile p := by
  rw [List.takeWhile_append]
  split
  next hlen =>
    rw [(List.takeWhile_prefix p).eq_of_length hlen]
    cases rest with
    | nil => exact List.append_nil text
    | cons c rest => simp [hrest c rfl]
  next => rfl

theorem dropWhile_run {p : Char → Bool} {run rest : List Char} (h : run.all p = true)
    (hrest : ∀ c ∈ rest.head?, p c = false) : (run ++ rest).dropWhile p = rest := by
  rw [List.dropWhile_append_of_pos (List.all_eq_true.1 h)]
  cases rest with
  | nil => rfl
  | cons c rest => simp [hrest c rfl]

namespace Lexicon

variable (l : Lexicon)

/-- Characters of a lexeme already taken are passed. -/
theorem cutFrom_passed (rest : List Char) : ∀ (w : List Char) (offset : Nat),
    l.cutFrom w.length offset (w ++ rest) = l.cutFrom 0 (offset + utf8Length w) rest
  | [], offset => by simp [utf8Length]
  | c :: w, offset => by
      rw [List.length_cons, List.cons_append, cutFrom, cutFrom_passed rest w]
      simp only [utf8Length, Nat.add_assoc]

/-- A text that starts with a lexeme is cut behind it. -/
theorem cutFrom_lexeme {c : Char} {w rest : List Char} (hc : l.isSeparator c = false)
    (hw : l.lexeme? (c :: (w ++ rest)) = some (c :: w)) (offset : Nat) :
    l.cutFrom 0 offset (c :: (w ++ rest)) =
      (l.cutFrom 0 (offset + utf8Length (c :: w)) rest).map ((c :: w) :: ·) := by
  rw [cutFrom, hc, hw]
  simp only [Bool.false_eq_true, if_false, List.length_cons, Nat.add_sub_cancel]
  rw [cutFrom_passed]
  simp only [utf8Length, Nat.add_assoc]

theorem cutFrom_eq_nil_iff : ∀ (text : List Char) (offset : Nat),
    l.cutFrom 0 offset text = .ok [] ↔ text.all l.isSeparator = true
  | [], offset => by simp [cutFrom]
  | c :: rest, offset => by
      rw [cutFrom]
      cases hc : l.isSeparator c with
      | true => simp [cutFrom_eq_nil_iff rest, hc]
      | false =>
          cases l.lexeme? (c :: rest) with
          | none => simp [hc]
          | some w =>
              simp only [Bool.false_eq_true, if_false]
              cases l.cutFrom (w.length - 1) (offset + c.utf8Size) rest <;>
                simp [hc, Except.map]

/-- A text has no lexeme exactly if it is made of separators. -/
theorem cut_eq_nil_iff (text : List Char) :
    l.cut text = .ok [] ↔ text.all l.isSeparator = true :=
  l.cutFrom_eq_nil_iff text 0

end Lexicon

end Rulebook.Text
