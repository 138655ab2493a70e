/-!
# Tables

A table maps text keys to values.  Each key is bound at most once, which the type
records, so the size of a table is the number of its keys.  The order of the
entries carries no meaning.

The view of a table is `Table.get?`; `Table.get?_empty` and `Table.get?_insert` say
what the two builders do to it.  The entries of a table are its bindings
(`Table.mem_entries_iff`).
-/

namespace Rulebook

/-- A finite map from text to `α`. -/
structure Table (α : Type) where
  /-- The bindings, the newest first. -/
  entries : List (String × α)
  /-- No key is bound twice. -/
  nodup : (entries.map Prod.fst).Nodup

namespace Table

variable {α : Type}

/-- The table without entries. -/
def empty : Table α := ⟨[], List.nodup_nil⟩

instance : Inhabited (Table α) := ⟨empty⟩

/-- The value bound to a key. -/
def get? (t : Table α) (key : String) : Option α := t.entries.lookup key

/-- Whether a key is bound. -/
def contains (t : Table α) (key : String) : Bool := (t.get? key).isSome

/-- How many keys are bound. -/
def size (t : Table α) : Nat := t.entries.length

/-- The bound keys. -/
def keys (t : Table α) : List String := t.entries.map Prod.fst

/-- Binds a key; a value bound to it before is replaced. -/
def insert (t : Table α) (key : String) (value : α) : Table α where
  entries := (key, value) :: t.entries.filter (·.1 != key)
  nodup := by
    refine List.nodup_cons.2 ⟨?_, ?_⟩
    · simp
    · exact t.nodup.sublist (List.filter_sublist.map _)

/-- The table of the given bindings; of two for one key the later one holds. -/
def ofList (bindings : List (String × α)) : Table α :=
  bindings.foldl (fun t b => t.insert b.1 b.2) empty

/-- Whether two tables bind the same keys to values that `eq` accepts. -/
def agrees (eq : α → α → Bool) (s t : Table α) : Bool :=
  s.size == t.size &&
    s.entries.all fun b => match t.get? b.1 with
      | some value => eq b.2 value
      | none => false

/-! ## The view after each operation -/

@[simp] theorem get?_empty (key : String) : (empty : Table α).get? key = none := rfl

theorem lookup_filter_ne {key other : String} (h : other ≠ key) :
    ∀ entries : List (String × α),
      (entries.filter (·.1 != key)).lookup other = entries.lookup other
  | [] => rfl
  | (k, v) :: rest => by
      have ih := lookup_filter_ne h rest
      by_cases hk : k = key
      · subst hk
        have hne : (other == k) = false := by simpa using h
        simp [List.lookup_cons, hne, ih]
      · simp only [List.filter_cons, bne_iff_ne, ne_eq, hk, not_false_eq_true, ite_true,
          List.lookup_cons, ih]

theorem get?_insert (t : Table α) (key : String) (value : α) (other : String) :
    (t.insert key value).get? other = if other = key then some value else t.get? other := by
  by_cases h : other = key
  · subst h
    simp [get?, insert]
  · have hne : (other == key) = false := by simpa using h
    simp [get?, insert, List.lookup_cons, hne, h, lookup_filter_ne h]

/-! ## The entries -/

theorem mem_iff_lookup {κ : Type} [BEq κ] [LawfulBEq κ] {key : κ} {value : α}
    {entries : List (κ × α)} (h : (entries.map Prod.fst).Nodup) :
    (key, value) ∈ entries ↔ entries.lookup key = some value := by
  induction entries with
  | nil => simp
  | cons entry rest ih =>
      obtain ⟨k, v⟩ := entry
      obtain ⟨hk, hrest⟩ := List.nodup_cons.1 h
      by_cases hkey : key = k
      · subst hkey
        have hnot : (key, value) ∉ rest := fun hmem =>
          hk (List.mem_map.2 ⟨(key, value), hmem, rfl⟩)
        simp [hnot, eq_comm]
      · have hne : (key == k) = false := by simpa using hkey
        simp [List.lookup_cons, hne, hkey, ih hrest]

/-- The entries of a table are its bindings. -/
theorem mem_entries_iff {t : Table α} {key : String} {value : α} :
    (key, value) ∈ t.entries ↔ t.get? key = some value :=
  mem_iff_lookup t.nodup

theorem mem_keys_iff {t : Table α} {key : String} :
    key ∈ t.keys ↔ ∃ value, t.get? key = some value := by
  simp [keys, ← mem_entries_iff]

/-- Binding a key that is not bound adds one entry. -/
theorem entries_insert {t : Table α} {key : String} (h : t.get? key = none) (value : α) :
    (t.insert key value).entries = (key, value) :: t.entries := by
  have hfilter : t.entries.filter (·.1 != key) = t.entries := by
    refine List.filter_eq_self.2 fun entry hentry => ?_
    have hne : (key != entry.1) = true := List.lookup_eq_none_iff.1 h entry hentry
    rw [bne_comm, hne]
  simp only [insert, hfilter]

end Table

end Rulebook
