import Rulebook.Json.Members

/-!
# How deep documents nest

The nesting of a document is that of its arrays and objects.  What an array holds nests less
deep than the array (`Document.nesting_lt_of_mem_items`), and so does what an object holds
under a key (`Document.nesting_lt_of_find`).
-/

namespace Rulebook.Json

namespace Document

mutual

/-- How deep arrays and objects nest. -/
def nesting : Document → Nat
  | null => 0
  | bool _ => 0
  | number _ => 0
  | string _ => 0
  | array items => itemsNesting items + 1
  | object members => membersNesting members + 1

/-- How deep the items of an array nest. -/
def itemsNesting : List Document → Nat
  | [] => 0
  | d :: rest => max d.nesting (itemsNesting rest)

/-- How deep the members of an object nest. -/
def membersNesting : List Member → Nat
  | [] => 0
  | (_, d) :: rest => max d.nesting (membersNesting rest)

end

theorem nesting_lt_of_mem_items {items : List Document} {d : Document} (h : d ∈ items) :
    d.nesting < (array items).nesting := by
  rw [nesting, Nat.lt_succ_iff]
  induction h with
  | head rest => exact Nat.le_max_left _ _
  | tail _ _ ih => exact Nat.le_trans ih (Nat.le_max_right _ _)

theorem nesting_lt_of_mem_members {members : List Member} {m : Member} (h : m ∈ members) :
    m.2.nesting < (object members).nesting := by
  rw [nesting, Nat.lt_succ_iff]
  induction h with
  | head rest => exact Nat.le_max_left _ _
  | tail _ _ ih => exact Nat.le_trans ih (Nat.le_max_right _ _)

/-- What has a text as its key is the value of a member. -/
theorem nesting_lt_of_mem_textMembers? {members : List Member}
    {named : List (String × Document)} (hnamed : textMembers? members = some named)
    {m : String × Document} (h : m ∈ named) : m.2.nesting < (object members).nesting := by
  obtain ⟨units, hmem⟩ : ∃ units, (units, m.2) ∈ members := by
    induction members generalizing named with
    | nil =>
        cases hnamed
        cases h
    | cons member rest ih =>
        rw [textMembers?] at hnamed
        split at hnamed
        next key rest' hkey hrest =>
          cases hnamed
          rcases List.mem_cons.1 h with rfl | h
          · exact ⟨_, .head _⟩
          · obtain ⟨units, hmem⟩ := ih hrest h
            exact ⟨units, .tail _ hmem⟩
        next => cases hnamed
  exact nesting_lt_of_mem_members hmem

end Document

namespace Slot

variable {members : List Member} {named : List (String × Document)}

/-- What is found under a key is the value of a member. -/
theorem nesting_lt_of_find (hnamed : Document.textMembers? members = some named)
    {names : List String} {d : Document} (h : find names named = .once d) :
    d.nesting < (Document.object members).nesting := by
  rw [find] at h
  split at h
  next => cases h
  next m hm =>
    cases h
    have hmem : m ∈ named.filter fun m => names.contains m.1 := hm ▸ .head _
    exact Document.nesting_lt_of_mem_textMembers? hnamed (List.mem_filter.1 hmem).1
  next => cases h

/-- A child that is left out does not nest. -/
theorem nesting_lt_of_child? (hnamed : Document.textMembers? members = some named)
    {names : List String} {d : Document} (h : (find names named).child? = some d) :
    d.nesting < (Document.object members).nesting := by
  cases hslot : find names named with
  | missing =>
      rw [hslot] at h
      cases h
      exact Nat.succ_pos _
  | once child =>
      rw [hslot] at h
      cases h
      exact nesting_lt_of_find hnamed hslot
  | repeated =>
      rw [hslot] at h
      cases h

end Slot

end Rulebook.Json
