import Rulebook.Proofs.Json.Float
import Rulebook.Proofs.Portable.Document
import Rulebook.Proofs.WriteOnce

/-!
# What is stored can be found again

Nothing checks a form when it is stored.  What has been stored under a name is found there
exactly if the form nests no deeper than is read and all its numbers are finite
(`Process.stored_is_found_iff`): a number that is not finite is written as `null`, while the
numeral of every finite one is read.  Any other form takes its name for good, and is never
found (`Process.takes_unreadable`).
-/

namespace Rulebook

/-! ## Values -/

theorem Value.isSome_reread_iff (v : Value) :
    v.reread.isSome = true ↔ ∀ x, .float x = v → x.isFinite = true := by
  cases v with
  | int i => simp [reread_int]
  | text s => simp [reread_text]
  | float x =>
      rw [reread_float]
      split
      next hfinite => simp [hfinite, Binary64.isSome_number?_numeral hfinite]
      next hfinite => simp [hfinite]

/-! ## Portable forms -/

/-- The value that a payload compares with, if there is one. -/
def Payload.literals : Payload → List Value
  | condition _ _ literal => [literal]
  | operator _ => []

theorem Payload.isSome_reread_iff (payload : Payload) :
    payload.reread.isSome = true ↔ ∀ x, .float x ∈ payload.literals → x.isFinite = true := by
  cases payload with
  | condition field comparator literal =>
      simp [reread, literals, literal.isSome_reread_iff]
  | operator kind => simp [reread, literals]

namespace PortableTree

/-- The values that the nodes compare with, from left to right. -/
def literals : PortableTree → List Value
  | absent => []
  | node _ left right payload => payload.literals ++ left.literals ++ right.literals

theorem isSome_reread_iff (p : PortableTree) :
    p.reread.isSome = true ↔ ∀ x, .float x ∈ p.literals → x.isFinite = true := by
  induction p with
  | absent => simp [reread, literals]
  | node nodeType left right payload ihleft ihright =>
      simp only [literals, List.mem_append, or_imp, forall_and, ← ihleft, ← ihright,
        ← payload.isSome_reread_iff, reread]
      cases left.reread <;> cases right.reread <;> cases payload.reread <;> simp

/-- The JSON text of a form is read: the form does not nest too deep, and its numbers are
finite. -/
structure IsReadable (p : PortableTree) : Prop where
  levels_le : p.levels ≤ Json.maxNesting
  isFinite : ∀ x, .float x ∈ p.literals → x.isFinite = true

theorem IsReadable.exists_ofJson {p : PortableTree} (h : p.IsReadable) :
    ∃ found, ofJson p.json = .ok found := by
  obtain ⟨found, hfound⟩ := Option.isSome_iff_exists.1 (p.isSome_reread_iff.2 h.isFinite)
  exact ⟨found, by rw [ofJson_json, if_pos h.levels_le, hfound]⟩

theorem ofJson_json_of_not_readable {p : PortableTree} (h : ¬ p.IsReadable) :
    ofJson p.json = .error (.faultyData .unreadable) := by
  rw [ofJson_json]
  split
  next found hfound =>
    split at hfound
    next hlevels =>
      have hsome : p.reread.isSome = true := Option.isSome_of_eq_some hfound
      exact absurd ⟨hlevels, p.isSome_reread_iff.1 hsome⟩ h
    next => cases hfound
  next => rfl

end PortableTree

/-! ## Stores -/

/-- A name that is bound is not taken again. -/
theorem Store.add_of_get? {s : Store} {name text : String} (hname : Text.isBlankText name = false)
    (h : s.texts.get? name = some text) (p : PortableTree) :
    s.add name p = .error (.storage (.nameTaken name)) := by
  rw [add, hname, Table.contains, h]
  rfl

namespace Process

/-- What becomes of a form that has been stored. -/
theorem ask_stored {p : Process} {i : Nat} {name : String} {form : PortableTree}
    (h : (p.step (.ask i (.put name form))).1 = .put (.ok ())) (further : List Call) :
    let q := (p.step (.ask i (.put name form))).2.after further
    (q.step (.ask i (.stored name))).1 = .stored (PortableTree.ofJson form.json) ∧
      ∀ other, (q.step (.ask i (.put name other))).1 =
        .put (.error (.storage (.nameTaken name))) := by
  intro q
  have hbinding : (Call.ask i (.put name form)).binding? i
      (p.step (.ask i (.put name form))).1 = some (name, form.json) := by
    rw [h, Call.binding?_self rfl]
    rfl
  have hname : Text.isBlankText name = false := by
    have hturns := p.turns_step (.ask i (.put name form)) i
    rw [hbinding] at hturns
    exact hturns.isBlankText
  obtain ⟨engine, hi, hget⟩ := get?_of_binding hbinding further
  constructor
  · rw [step, hi]
    exact congrArg Outcome.stored (Store.load_of_get? hget)
  · intro other
    rw [step, hi]
    simp only [Engine.answer, Store.add_of_get? hname hget]

/-- After a form has been stored and any further calls have been made, a form is found under
its name exactly if the stored one nests no deeper than is read and its numbers are finite.
Otherwise what is found is unreadable. -/
theorem stored_is_found_iff {p : Process} {i : Nat} {name : String} {form : PortableTree}
    (h : (p.step (.ask i (.put name form))).1 = .put (.ok ())) (further : List Call) :
    let q := (p.step (.ask i (.put name form))).2.after further
    ((∃ found, (q.step (.ask i (.stored name))).1 = .stored (.ok found)) ↔ form.IsReadable) ∧
      (¬ form.IsReadable →
        (q.step (.ask i (.stored name))).1 = .stored (.error (.faultyData .unreadable))) := by
  intro q
  obtain ⟨hstored, -⟩ := ask_stored h further
  rw [hstored]
  by_cases hreadable : form.IsReadable
  · obtain ⟨found, hfound⟩ := hreadable.exists_ofJson
    simp [hreadable, hfound]
  · simp [hreadable, PortableTree.ofJson_json_of_not_readable hreadable]

/-- The greatest number is found. -/
theorem stored_is_found_greatest :
    let form : PortableTree := .node operandType .absent .absent
      (.condition "a" ">" (.float (.ofBits 0x7FEFFFFFFFFFFFFF)))
    let put := (start.after [.newEngine {}]).step (.ask 0 (.put "r" form))
    put.1 = .put (.ok ()) ∧ ∃ found,
      ((put.2.after [.clear]).step (.ask 0 (.stored "r"))).1 = .stored (.ok found) := by
  intro form put
  have h : put.1 = .put (.ok ()) := rfl
  refine ⟨h, (stored_is_found_iff h [.clear]).1.2 ⟨by decide, ?_⟩⟩
  intro x hx
  obtain rfl : x = .ofBits 0x7FEFFFFFFFFFFFFF := Value.float.inj (List.mem_singleton.1 hx)
  decide

/-- A leaf that compares with what is no number, and a chain of 127 conditions, take their name
for good and are never found. -/
theorem takes_unreadable :
    let leaf : Tree := .leaf ⟨"a", .greater, .int 1⟩
    let undefined : Tree := .leaf ⟨"a", .greater, .float (.ofBits 0x7FF8000000000000)⟩
    let chain : Tree := (List.replicate 126 leaf).foldl (.operator .and) leaf
    ∀ tree ∈ [undefined, chain],
      let put := (start.after [.newEngine {}]).step (.ask 0 (.put "r" tree.portable))
      put.1 = .put (.ok ()) ∧ ∀ further, let q := put.2.after further
        (q.step (.ask 0 (.stored "r"))).1 = .stored (.error (.faultyData .unreadable)) ∧
        ∀ other, (q.step (.ask 0 (.put "r" other))).1 =
          .put (.error (.storage (.nameTaken "r"))) := by
  intro leaf undefined chain tree htree put
  have h : put.1 = .put (.ok ()) := rfl
  have hunreadable : ¬ tree.portable.IsReadable := by
    rcases List.mem_pair.1 htree with rfl | rfl
    · exact fun hreadable => absurd (hreadable.isFinite _ (.head _)) (by decide)
    · exact fun hreadable => absurd hreadable.levels_le (by decide +kernel)
  refine ⟨h, fun further => ?_⟩
  obtain ⟨hstored, hput⟩ := ask_stored h further
  rw [PortableTree.ofJson_json_of_not_readable hunreadable] at hstored
  exact ⟨hstored, hput⟩

end Process

end Rulebook
