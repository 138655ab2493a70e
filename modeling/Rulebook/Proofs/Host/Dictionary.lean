import Mathlib.Data.List.Forall2
import Mathlib.Data.List.Induction
import Rulebook.Host

/-!
# Dictionaries of the host

A dictionary arises by setting keys, so no text is a key twice (`HostDict.isDistinct_ofEntries`).
Entries whose keys are texts can be told one by one by pairs of a text and what stands for the
value (`HostDict.Named`).  A text has in both what stands for one value (`HostDict.rel_find`), and
these texts are distinct if the keys are (`HostDict.IsDistinct.nodup`).
-/

namespace Rulebook

theorem HostKey.text_injective : Function.Injective HostKey.text :=
  fun _ _ => HostKey.text.inj

theorem exists_forall₂ {α β : Type} {R : α → β → Prop} {l : List α} (h : ∀ a ∈ l, ∃ b, R a b) :
    ∃ l', List.Forall₂ R l l' := by
  induction l with
  | nil => exact ⟨[], .nil⟩
  | cons a rest ih =>
      obtain ⟨b, hb⟩ := h a (.head _)
      obtain ⟨l', hrest⟩ := ih fun a ha => h a (.tail _ ha)
      exact ⟨b :: l', .cons hb hrest⟩

namespace HostDict

/-! ## Distinct keys -/

/-- The keys of a dictionary are distinct.  Keys that are no texts are not told apart.  This leaves
out dictionaries with different keys of derived types that have one text. -/
def IsDistinct (d : HostDict) : Prop :=
  (d.map Prod.fst).Pairwise fun key key' => key = .other ∨ key ≠ key'

instance (d : HostDict) : Decidable d.IsDistinct :=
  inferInstanceAs (Decidable ((d.map Prod.fst).Pairwise _))

/-- A text that is there keeps its place, and any other key comes last. -/
theorem map_fst_put (d : HostDict) (key : HostKey) (value : HostValue) :
    (d.put key value).map Prod.fst =
      if key ≠ .other ∧ key ∈ d.map Prod.fst then d.map Prod.fst else d.map Prod.fst ++ [key] := by
  induction d with
  | nil => simp [put]
  | cons entry rest ih =>
      obtain ⟨k, old⟩ := entry
      rw [put]
      split
      next hkey => simp [hkey.1, hkey.2]
      next hkey =>
        rw [List.map_cons, ih]
        grind

theorem IsDistinct.put {d : HostDict} (h : d.IsDistinct) (key : HostKey) (value : HostValue) :
    (HostDict.put d key value).IsDistinct := by
  rw [IsDistinct, map_fst_put]
  split
  next => exact h
  next hnew =>
    refine List.pairwise_append.2 ⟨h, List.pairwise_singleton _ _, fun k hk k' hk' => ?_⟩
    rw [List.mem_singleton.1 hk']
    grind

/-- The keys of a dictionary that has been built are distinct. -/
theorem isDistinct_ofEntries (entries : List (HostKey × HostValue)) :
    (ofEntries entries).IsDistinct := by
  induction entries using List.reverseRecOn with
  | nil => exact .nil
  | append_singleton entries e ih =>
      rw [ofEntries, List.foldl_concat]
      exact ih.put e.1 e.2

/-! ## Entries with texts as keys -/

/-- An entry has a text as its key, which is the name of what stands for its value. -/
inductive Named {α : Type} (R : HostValue → α → Prop) :
    HostKey × HostValue → String × α → Prop where
  | intro (name : String) {value : HostValue} {a : α} (h : R value a) :
      Named R (.text name, value) (name, a)

variable {α : Type} {R : HostValue → α → Prop} {d : HostDict} {named : List (String × α)}

theorem map_fst_of_named (h : List.Forall₂ (Named R) d named) :
    d.map Prod.fst = (named.map Prod.fst).map .text := by
  induction h with
  | nil => rfl
  | cons hentry _ ih =>
      cases hentry with
      | intro name h => rw [List.map_cons, List.map_cons, List.map_cons, ih]

theorem IsDistinct.nodup (hd : d.IsDistinct) (h : List.Forall₂ (Named R) d named) :
    (named.map Prod.fst).Nodup := by
  rw [IsDistinct, map_fst_of_named h, List.pairwise_map] at hd
  refine hd.imp ?_
  intro name name' hkeys heq
  rcases hkeys with hother | hne
  · cases hother
  · exact hne (congrArg HostKey.text heq)

/-- What a text is the name of stands for the value that it has as a key. -/
theorem rel_find (h : List.Forall₂ (Named R) d named) (key : String) :
    Option.Rel R (d.find? key) (named.lookup key) := by
  induction h with
  | nil => exact .none
  | cons hentry _ ih =>
      cases hentry with
      | intro name hvalue =>
          by_cases hkey : key = name
          · subst hkey
            rw [find?, List.lookup_cons_self, List.lookup_cons_self]
            exact .some hvalue
          · have hne : (HostKey.text key == .text name) = false :=
              beq_eq_false_iff_ne.2 fun heq => hkey (HostKey.text.inj heq)
            rw [find?, List.lookup_cons, List.lookup_cons, hne, beq_eq_false_iff_ne.2 hkey]
            exact ih

end HostDict

end Rulebook
