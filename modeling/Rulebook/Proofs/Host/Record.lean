import Mathlib.Data.List.Dedup
import Rulebook.Proofs.Host.Dictionary
import Rulebook.Proofs.Rule.Literal

/-!
# Dictionaries as records

An entry of a dictionary binds a field to a value (`HostDict.Binds`), or it is refused for one
reason (`HostDict.Refuses`).  The entries are read in order, so that reading gives the table of
all bindings (`HostDict.record_of_binds`) or stops at the first entry that is refused, without a
look at those behind it (`HostDict.addTo_of_refused`).

Texts with surrogates are refused as keys and as values; all other texts are strings
(`textOfPoints_eq_ok_iff`).  Where two keys have one text, the later binding replaces the earlier
one (`Table.get?_ofList`).  If the keys are distinct, each entry becomes a field
(`HostDict.IsDistinct.fields`).
-/

namespace Rulebook

/-! ## Tables of bindings -/

namespace Table

variable {α : Type}

/-- The last binding of a key holds. -/
theorem get?_ofList (bindings : List (String × α)) (key : String) :
    (ofList bindings).get? key = bindings.reverse.lookup key := by
  induction bindings using List.reverseRecOn with
  | nil => rfl
  | append_singleton bindings b ih =>
      rw [ofList, List.foldl_concat, ← ofList, get?_insert, List.reverse_concat, ih]
      by_cases hkey : key = b.1
      · rw [if_pos hkey, hkey, List.lookup_cons_self]
      · rw [if_neg hkey, List.lookup_cons, beq_eq_false_iff_ne.2 hkey]

theorem get?_ofList_eq_none_iff {bindings : List (String × α)} {key : String} :
    (ofList bindings).get? key = none ↔ key ∉ bindings.map Prod.fst := by
  rw [get?_ofList, List.lookup_eq_none_iff]
  simp only [List.mem_reverse, bne_iff_ne, List.mem_map, not_exists, not_and]
  exact forall₂_congr fun b _ => ne_comm

/-- A table has one entry for each key among its bindings. -/
theorem size_ofList (bindings : List (String × α)) :
    (ofList bindings).size = (bindings.map Prod.fst).dedup.length := by
  have hkeys (key : String) :
      key ∈ (ofList bindings).keys ↔ key ∈ (bindings.map Prod.fst).dedup := by
    rw [mem_keys_iff, ← Option.ne_none_iff_exists', ne_eq, get?_ofList_eq_none_iff, not_not,
      List.mem_dedup]
  have hperm := (List.perm_ext_iff_of_nodup (ofList bindings).nodup (List.nodup_dedup _)).2 hkeys
  rw [size, ← hperm.length_eq]
  exact (List.length_map _).symm

end Table

/-! ## Texts -/

theorem CodePoint.mapM_char?_eq_some_iff {points : List CodePoint} {chars : List Char} :
    points.mapM char? = some chars ↔ points = chars.map .char := by
  induction points generalizing chars with
  | nil => cases chars <;> simp
  | cons point rest ih =>
      rw [List.mapM_cons]
      cases point with
      | char c => cases chars <;> simp [char?, Option.bind_eq_some_iff, ih, and_left_comm]
      | surrogate offset => cases chars <;> simp [char?]

/-- Code points are a string exactly if they are its characters. -/
theorem textOfPoints_eq_ok_iff {points : List CodePoint} {s : String} :
    textOfPoints points = .ok s ↔ points = s.toList.map .char := by
  rw [← CodePoint.mapM_char?_eq_some_iff, textOfPoints]
  split
  next chars hchars =>
    rw [hchars, Except.ok.injEq, Option.some.injEq]
    exact ⟨fun h => by rw [← h, String.toList_ofList], fun h => by rw [h, String.ofList_toList]⟩
  next hnone => simp [hnone]

/-! ## Entries -/

/-- The value that a value of the host is in a record. -/
inductive HostValue.Denotes : HostValue → Value → Prop where
  | int (i : Int64) : Denotes (.int i.toInt) (.int i)
  | float (x : Binary64) : Denotes (.float x) (.float x)
  | text (s : String) : Denotes (.text s) (.text s)

theorem HostValue.Denotes.fieldValue {value : HostValue} {v : Value} (h : value.Denotes v)
    (field : String) : value.fieldValue field = .ok v := by
  cases h with
  | int i => rw [HostValue.fieldValue, Value.ofInt?_toInt]
  | float x => rfl
  | text s => rfl

theorem HostValue.Denotes.unique {value : HostValue} {v w : Value} (hv : value.Denotes v)
    (hw : value.Denotes w) : v = w :=
  Except.ok.inj ((hv.fieldValue "").symm.trans (hw.fieldValue ""))

theorem HostValue.Denotes.eq_some_iff {found : Option HostValue} {bound : Option Value}
    (h : Option.Rel Denotes found bound) {v : Value} :
    bound = some v ↔ ∃ value, found = some value ∧ value.Denotes v := by
  cases h with
  | none => simp
  | @some value w hvalue =>
      constructor
      · rintro ⟨⟩
        exact ⟨value, rfl, hvalue⟩
      · rintro ⟨_, ⟨⟩, hv⟩
        rw [hvalue.unique hv]

namespace HostDict

/-- An entry binds a field to a value. -/
def Binds : HostKey × HostValue → String × Value → Prop := Named HostValue.Denotes

/-- The reasons to refuse an entry.  Its key is looked at first. -/
inductive Refuses : HostKey × HostValue → SessionFault → Prop where
  /-- The key is no text. -/
  | key (value : HostValue) : Refuses (.other, value) .keyNotText
  /-- The key is a text with surrogates. -/
  | brokenKey (t : BrokenText) (value : HostValue) : Refuses (.broken t, value) .textBroken
  /-- The value is an integer that does not fit in 64 bits. -/
  | range (field : String) {n : Int} (h : ¬ (-2 ^ 63 ≤ n ∧ n ≤ 2 ^ 63 - 1)) :
      Refuses (.text field, .int n) .integerTooLarge
  /-- The value is a text with surrogates. -/
  | brokenValue (field : String) (t : BrokenText) : Refuses (.text field, .broken t) .textBroken
  /-- The value has a type that no value of a record has. -/
  | type (field : String) {value : HostValue} (hint : ∀ n, value ≠ .int n)
      (hfloat : ∀ x, value ≠ .float x) (htext : ∀ s, value ≠ .text s)
      (hbroken : ∀ t, value ≠ .broken t) :
      Refuses (.text field, value) (.engine (.invalidRecordValue field value.typeName))

theorem binds_or_refuses (e : HostKey × HostValue) :
    (∃ b, Binds e b) ∨ ∃ f, Refuses e f := by
  obtain ⟨key, value⟩ := e
  cases key with
  | other => exact .inr ⟨_, .key value⟩
  | broken t => exact .inr ⟨_, .brokenKey t value⟩
  | text field =>
      cases value with
      | int n =>
          by_cases hn : -2 ^ 63 ≤ n ∧ n ≤ 2 ^ 63 - 1
          · obtain ⟨i, rfl, -⟩ := Value.exists_ofInt?_eq_some hn
            exact .inl ⟨(field, .int i), .intro field (.int i)⟩
          · exact .inr ⟨_, .range field hn⟩
      | float x => exact .inl ⟨(field, .float x), .intro field (.float x)⟩
      | text s => exact .inl ⟨(field, .text s), .intro field (.text s)⟩
      | broken t => exact .inr ⟨_, .brokenValue field t⟩
      | _ => exact .inr ⟨_, .type field nofun nofun nofun nofun⟩

/-! ## Reading entry by entry -/

variable {before : HostDict} {bindings : List (String × Value)}

/-- Entries that bind fields are all added. -/
theorem addTo_of_binds (h : List.Forall₂ Binds before bindings) (record : Record)
    (after : HostDict) : addTo record (before ++ after) =
      addTo (bindings.foldl (fun t b => t.insert b.1 b.2) record) after := by
  induction h generalizing record with
  | nil => rfl
  | cons hb _ ih =>
      cases hb with
      | intro field hvalue =>
          rw [List.cons_append, addTo, hvalue.fieldValue, List.foldl_cons]
          exact ih _

/-- The first entry that is refused ends the reading. -/
theorem addTo_of_refused (h : List.Forall₂ Binds before bindings)
    {entry : HostKey × HostValue} {f : SessionFault} (hf : Refuses entry f) (record : Record)
    (after : HostDict) : addTo record (before ++ entry :: after) = .error f := by
  rw [addTo_of_binds h]
  cases hf with
  | key value => rfl
  | brokenKey t value => rfl
  | range field hn => rw [addTo, HostValue.fieldValue, Value.ofInt?_eq_none hn]
  | brokenValue field t => rfl
  | @type field value hint hfloat htext hbroken =>
      cases value with
      | int n => exact absurd rfl (hint n)
      | float x => exact absurd rfl (hfloat x)
      | text s => exact absurd rfl (htext s)
      | broken t => exact absurd rfl (hbroken t)
      | _ => rfl

/-- All entries bind fields, or there is a first one that is refused. -/
theorem whole_or_refused (d : HostDict) : (∀ e ∈ d, ∃ b, Binds e b) ∨
    ∃ before entry after f, d = before ++ entry :: after ∧ (∀ e ∈ before, ∃ b, Binds e b) ∧
      Refuses entry f := by
  induction d with
  | nil => exact .inl nofun
  | cons e rest ih =>
      rcases binds_or_refuses e with hb | ⟨f, hf⟩
      · rcases ih with hrest | ⟨before, entry, after, f, rfl, hbefore, hf⟩
        · exact .inl (List.forall_mem_cons.2 ⟨hb, hrest⟩)
        · exact .inr ⟨e :: before, entry, after, f, rfl,
            List.forall_mem_cons.2 ⟨hb, hbefore⟩, hf⟩
      · exact .inr ⟨[], e, rest, f, rfl, nofun, hf⟩

/-! ## Records -/

variable {d : HostDict}

/-- A dictionary whose entries bind fields is the record of their bindings. -/
theorem record_of_binds (h : List.Forall₂ Binds d bindings) :
    d.record = .ok (Table.ofList bindings) := by
  have hadd := addTo_of_binds h .empty []
  rwa [List.append_nil] at hadd

theorem record_of_refused {before : HostDict} (hbefore : ∀ e ∈ before, ∃ b, Binds e b)
    {entry : HostKey × HostValue} {f : SessionFault} (hf : Refuses entry f) (after : HostDict) :
    record (before ++ entry :: after) = .error f := by
  obtain ⟨bindings, h⟩ := exists_forall₂ hbefore
  exact addTo_of_refused h hf .empty after

/-- Each text that is a key is a field, with the value of its last entry. -/
theorem fields (h : List.Forall₂ Binds d bindings) :
    let r : Record := Table.ofList bindings
    (∀ field v, r.get? field = some v ↔
      ∃ value, find? d.reverse field = some value ∧ value.Denotes v) ∧
    (∀ field, r.get? field = none ↔ .text field ∉ d.map Prod.fst) ∧
    r.size = (d.map Prod.fst).dedup.length := by
  intro r
  refine ⟨fun field v => ?_, fun field => ?_, ?_⟩
  · rw [Table.get?_ofList]
    exact HostValue.Denotes.eq_some_iff (rel_find (List.rel_reverse h) field)
  · rw [Table.get?_ofList_eq_none_iff, map_fst_of_named h,
      List.mem_map_of_injective HostKey.text_injective]
  · rw [Table.size_ofList, map_fst_of_named h,
      List.dedup_map_of_injective HostKey.text_injective, List.length_map]

/-- With distinct keys, each entry is a field. -/
theorem IsDistinct.fields (hd : d.IsDistinct) (h : List.Forall₂ Binds d bindings) :
    let r : Record := Table.ofList bindings
    r.size = d.length ∧
      ∀ field v, r.get? field = some v ↔ ∃ value, (.text field, value) ∈ d ∧ value.Denotes v := by
  intro r
  obtain ⟨hget, -, hsize⟩ := HostDict.fields h
  have hnodup : (d.map Prod.fst).Nodup := by
    rw [map_fst_of_named h]
    exact (hd.nodup h).map HostKey.text_injective
  have hreverse : (d.reverse.map Prod.fst).Nodup := by
    rw [List.map_reverse]
    exact List.nodup_reverse.2 hnodup
  refine ⟨?_, fun field v => ?_⟩
  · rw [hsize, hnodup.dedup, List.length_map]
  · refine (hget field v).trans ?_
    simp only [find?, ← Table.mem_iff_lookup hreverse, List.mem_reverse]

/-- A dictionary is read as a record exactly if each of its entries has a text without surrogates
as its key, and as its value an integer of 64 bits, a floating-point number or a text without
surrogates.  The texts that are keys are the fields of the record, each with the value of its last
entry, so with distinct keys the record has as many fields as the dictionary has entries, each
with the value that it has in the dictionary.  Every other dictionary is refused for its first
entry that is not such a one, whatever entries stand behind it. -/
theorem record_whole_or_refused (d : HostDict) :
    ((∃ r, d.record = .ok r) ↔ ∀ e ∈ d, ∃ b, Binds e b) ∧
    (∀ r, d.record = .ok r →
      ((∀ field v, r.get? field = some v ↔
          ∃ value, find? d.reverse field = some value ∧ value.Denotes v) ∧
        (∀ field, r.get? field = none ↔ .text field ∉ d.map Prod.fst) ∧
        r.size = (d.map Prod.fst).dedup.length) ∧
      (d.IsDistinct → r.size = d.length ∧
        ∀ field v, r.get? field = some v ↔ ∃ value, (.text field, value) ∈ d ∧ value.Denotes v)) ∧
    (∀ f, d.record = .error f → ∃ before entry after, d = before ++ entry :: after ∧
      (∀ e ∈ before, ∃ b, Binds e b) ∧ Refuses entry f) ∧
    ∀ before entry f, (∀ e ∈ before, ∃ b, Binds e b) → Refuses entry f →
      ∀ after, record (before ++ entry :: after) = .error f := by
  have hwhole (r : Record) (hr : d.record = .ok r) : ∀ e ∈ d, ∃ b, Binds e b := by
    refine (whole_or_refused d).resolve_right ?_
    rintro ⟨before, entry, after, f, rfl, hbefore, hf⟩
    cases hr.symm.trans (record_of_refused hbefore hf after)
  refine ⟨⟨fun ⟨r, hr⟩ => hwhole r hr, fun hbinds => ?_⟩, fun r hr => ?_, fun f hf => ?_,
    fun before entry f hbefore hf => record_of_refused hbefore hf⟩
  · obtain ⟨bindings, h⟩ := exists_forall₂ hbinds
    exact ⟨_, record_of_binds h⟩
  · obtain ⟨bindings, h⟩ := exists_forall₂ (hwhole r hr)
    cases hr.symm.trans (record_of_binds h)
    exact ⟨fields h, fun hd => hd.fields h⟩
  · rcases whole_or_refused d with hbinds | ⟨before, entry, after, f', rfl, hbefore, hf'⟩
    · obtain ⟨bindings, h⟩ := exists_forall₂ hbinds
      cases hf.symm.trans (record_of_binds h)
    · cases hf.symm.trans (record_of_refused hbefore hf' after)
      exact ⟨before, entry, after, rfl, hbefore, hf'⟩

/-- The first of four faults decides, and without them the greatest integer, a number and a text
are the record. -/
theorem record_whole_or_refused_four :
    let n := Int64.maxValue
    let fields : HostDict := [(.text "b", .int n.toInt), (.text "", .float (.ofInt 0)),
      (.text "a", .text "x")]
    let t : BrokenText := ⟨[.surrogate 0], rfl⟩
    let faults : HostDict := [(.text "c", .bool true), (.other, .none), (.text "e", .broken t),
      (.text "d", .int (2 ^ 63))]
    let f : SessionFault := .engine (.invalidRecordValue "c" "bool")
    fields.IsDistinct ∧
      (∃ r : Record, fields.record = .ok r ∧ r.size = 3 ∧ r.get? "b" = some (.int n) ∧
        r.get? "c" = none) ∧
      record (fields ++ faults) = .error f ∧ f.category = .input ∧
      record (fields ++ faults.tail) = .error .keyNotText ∧
      record (fields ++ faults.tail.tail) = .error .textBroken ∧
      record (fields ++ faults.reverse) = .error .integerTooLarge := by
  intro n fields t faults f
  have hdistinct : fields.IsDistinct := by decide
  have hbinds : ∀ e ∈ fields, ∃ b, Binds e b := by
    simp only [fields, List.forall_mem_cons]
    exact ⟨⟨("b", .int n), .intro "b" (.int n)⟩,
      ⟨("", .float (.ofInt 0)), .intro "" (.float _)⟩, ⟨("a", .text "x"), .intro "a" (.text "x")⟩,
      nofun⟩
  have hbool : Refuses (.text "c", .bool true) f := .type "c" nofun nofun nofun nofun
  have hrange : Refuses (.text "d", .int (2 ^ 63)) .integerTooLarge := .range "d" (by decide)
  obtain ⟨hok, hrecord, -, hrefused⟩ := record_whole_or_refused fields
  obtain ⟨r, hr⟩ := hok.2 hbinds
  obtain ⟨⟨-, hnone, -⟩, hdist⟩ := hrecord r hr
  obtain ⟨hsize, hget⟩ := hdist hdistinct
  exact ⟨hdistinct, ⟨r, hr, hsize, (hget _ _).2 ⟨_, .head _, .int n⟩, (hnone _).2 (by decide)⟩,
    hrefused fields _ f hbinds hbool _, rfl, hrefused fields _ _ hbinds (.key .none) _,
    hrefused fields _ _ hbinds (.brokenValue "e" t) _, hrefused fields _ _ hbinds hrange _⟩

/-- A text with surrogates has the type of texts, and yet it is neither a value nor a key of a
record.  Two entries whose keys have one text become one field. -/
theorem record_refuses_surrogates :
    let t : BrokenText := ⟨[.char 'a', .surrogate 0], rfl⟩
    let d : HostDict := [(.text "n", .int 2), (.text "a", .broken t)]
    let twins : HostDict := [(.text "a", .int 1), (.text "a", .int 2)]
    (HostValue.broken t).typeName = "str" ∧ d.IsDistinct ∧
      d.record = .error .textBroken ∧ record [(.broken t, .int 2)] = .error .textBroken ∧
      ∃ r : Record, twins.record = .ok r ∧ r.size < twins.length ∧ r.get? "a" = some (.int 2) := by
  intro t d twins
  exact ⟨rfl, by decide, rfl, rfl, _, rfl, by decide, by decide⟩

end HostDict

end Rulebook
