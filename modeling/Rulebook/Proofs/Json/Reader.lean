import Rulebook.Json.Reader
import Rulebook.Proofs.Json.Token

/-!
# Documents are read back as they are written

The tokens of a document lead from the state that expects a value to the state after it
(`Reading.steps?_tokens`).  No two of them stand side by side without a mark
(`Document.isChain_tokens`), so a document is read back whatever way its tokens are written
(`Document.Spells.parse?`).
-/

namespace Rulebook.Json

/-! ## Marks between tokens -/

/-- Tokens can follow a value: a mark comes first. -/
def Token.Follow (tokens : List Token) : Prop :=
  tokens.IsChain Parts ∧ ∀ t ∈ tokens.head?, t.isMark = true

theorem Token.Follow.cons {tokens : List Token} (h : Follow tokens) (t : Token) :
    (t :: tokens).IsChain Parts :=
  List.isChain_cons.2 ⟨fun u hu => .inr (h.2 u hu), h.1⟩

theorem Token.Follow.of_mark {tokens : List Token} {t : Token} (ht : t.isMark = true)
    (h : tokens.IsChain Parts) : Follow (t :: tokens) := by
  refine ⟨List.isChain_cons.2 ⟨fun _ _ => .inl ht, h⟩, ?_⟩
  intro u hu
  cases hu
  exact ht

namespace Document

open Token

mutual

theorem isChain_tokens_append {ts : List Token} (h : Follow ts) :
    ∀ d : Document, (d.tokens ++ ts).IsChain Parts
  | null => h.cons _
  | bool _ => h.cons _
  | number _ => h.cons _
  | string _ => h.cons _
  | array items => (Follow.of_mark rfl (isChain_itemTokens h items)).1
  | object members => (Follow.of_mark rfl (isChain_memberTokens h members)).1

theorem isChain_itemTokens {ts : List Token} (h : Follow ts) :
    ∀ items : List Document, (itemTokens items ++ ts).IsChain Parts
  | [] => h.cons _
  | d :: rest => by
      rw [itemTokens, List.append_assoc]
      exact isChain_tokens_append (follow_moreItemTokens h rest) d

theorem follow_moreItemTokens {ts : List Token} (h : Follow ts) :
    ∀ items : List Document, Follow (moreItemTokens items ++ ts)
  | [] => .of_mark rfl h.1
  | d :: rest => by
      rw [moreItemTokens, List.cons_append, List.cons_append, List.append_assoc]
      exact .of_mark rfl (isChain_tokens_append (follow_moreItemTokens h rest) d)

theorem isChain_memberTokens {ts : List Token} (h : Follow ts) :
    ∀ members : List Member, (memberTokens members ++ ts).IsChain Parts
  | [] => h.cons _
  | (key, d) :: rest => by
      have hvalue := isChain_tokens_append (follow_moreMemberTokens h rest) d
      rw [memberTokens]
      simp only [List.cons_append, List.append_assoc]
      exact (Follow.of_mark rfl hvalue).cons _

theorem follow_moreMemberTokens {ts : List Token} (h : Follow ts) :
    ∀ members : List Member, Follow (moreMemberTokens members ++ ts)
  | [] => .of_mark rfl h.1
  | (key, d) :: rest => by
      have hvalue := isChain_tokens_append (follow_moreMemberTokens h rest) d
      rw [moreMemberTokens]
      simp only [List.cons_append, List.append_assoc]
      exact .of_mark rfl ((Follow.of_mark rfl hvalue).cons _)

end

theorem isChain_tokens (d : Document) : d.tokens.IsChain Parts := by
  have h := isChain_tokens_append ⟨.nil, fun _ ht => nomatch ht⟩ d
  rwa [List.append_nil] at h

end Document

/-! ## Reading the tokens of a document -/

namespace Reading

theorem steps?_cons {r r' : Reading} {token : Token} (h : r.step? token = some r')
    (rest : List Token) : r.steps? (token :: rest) = r'.steps? rest := by
  rw [steps?, h]

/-- The first item of an array is read like a later one. -/
theorem steps?_firstItem (containers : List Container) (d : Document) (ts : List Token) :
    steps? ⟨containers, .firstItem⟩ (d.tokens ++ ts) =
      steps? ⟨.array [] :: containers, .value⟩ (d.tokens ++ ts) := by
  cases d <;> rfl

open Document

mutual

theorem steps?_tokens (containers : List Container) (ts : List Token) :
    ∀ d : Document, steps? ⟨containers, .value⟩ (d.tokens ++ ts) =
      steps? ⟨containers, .after d⟩ ts
  | .null => rfl
  | .bool _ => rfl
  | .number _ => rfl
  | .string _ => rfl
  | .array [] => rfl
  | .array (d :: rest) => by
      rw [tokens, itemTokens, List.cons_append, List.append_assoc, steps?_cons rfl,
        steps?_firstItem, steps?_tokens _ _ d, steps?_moreItemTokens]
      rfl
  | .object [] => rfl
  | .object ((key, d) :: rest) => by
      rw [tokens, memberTokens]
      simp only [List.cons_append, List.append_assoc]
      rw [steps?_cons rfl, steps?_cons rfl, steps?_cons rfl, steps?_tokens _ _ d,
        steps?_moreMemberTokens]
      rfl

theorem steps?_moreItemTokens (containers : List Container) (ts : List Token)
    (before : List Document) (last : Document) :
    ∀ items : List Document,
      steps? ⟨.array before :: containers, .after last⟩ (moreItemTokens items ++ ts) =
        steps? ⟨containers, .after (.array ((last :: before).reverse ++ items))⟩ ts
  | [] => by
      rw [List.append_nil]
      rfl
  | d :: rest => by
      rw [moreItemTokens, List.cons_append, List.cons_append, List.append_assoc,
        steps?_cons rfl, steps?_tokens _ _ d, steps?_moreItemTokens]
      rw [List.reverse_cons (a := d), List.append_assoc]
      rfl

theorem steps?_moreMemberTokens (containers : List Container) (ts : List Token)
    (before : List Member) (key : List TextUnit) (last : Document) :
    ∀ members : List Member,
      steps? ⟨.object before key :: containers, .after last⟩ (moreMemberTokens members ++ ts) =
        steps? ⟨containers, .after (.object (((key, last) :: before).reverse ++ members))⟩ ts
  | [] => by
      rw [List.append_nil]
      rfl
  | (key', d) :: rest => by
      rw [moreMemberTokens]
      simp only [List.cons_append, List.append_assoc]
      rw [steps?_cons rfl, steps?_cons rfl, steps?_cons rfl, steps?_tokens _ _ d,
        steps?_moreMemberTokens]
      rw [List.reverse_cons (a := (key', d)), List.append_assoc]
      rfl

end

end Reading

theorem Document.ofTokens?_tokens (d : Document) : ofTokens? d.tokens = some d := by
  have hsteps := Reading.steps?_tokens [] [] d
  rw [List.append_nil] at hsteps
  rw [ofTokens?, Reading.start, hsteps]
  rfl

/-- The ways to write a document: with blanks between the tokens, and escapes in strings. -/
def Document.Spells (d : Document) (text : List Char) : Prop := Token.SpellAll d.tokens text

/-- A document is read back whatever way it is written. -/
theorem Document.Spells.parse? {d : Document} {text : List Char} (h : d.Spells text) :
    Document.parse? text = some d := by
  rw [Document.parse?, Token.SpellAll.scan? h d.isChain_tokens, Option.bind_some,
    ofTokens?_tokens]

theorem Document.Spells.mem_openBrace {d : Document} {text : List Char} (h : d.Spells text)
    (hd : Token.openBrace ∈ d.tokens) : '{' ∈ text := by
  obtain ⟨w, hw, hsub⟩ := Token.SpellAll.exists_subset h _ hd
  cases hw with
  | mark _ => exact hsub (.head _)

/-- A document can be written without blanks if its tokens can be written. -/
theorem Document.spells_text {d : Document} (h : ∀ t ∈ d.tokens, t.IsWritable) :
    d.Spells d.text :=
  Token.spellAll_flatMap_text h

end Rulebook.Json
