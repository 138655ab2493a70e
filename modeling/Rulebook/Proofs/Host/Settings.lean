import Rulebook.Proofs.Host.Json

/-!
# Two readers of settings

Settings are read from a dictionary of the host (`HostDict.settings`) and from JSON
(`Settings.ofJson`).  What a dictionary says about the settings (`HostDict.Describes`) depends on
two of its keys.  The reader of JSON accepts this and nothing else, whatever way the dictionary is
written (`HostDict.ofJson_eq_ok_iff`).  So does the reader of dictionaries, except that it counts
a truth value as a capacity of zero or one (`HostDict.settings_eq_ok_iff`).
-/

namespace Rulebook

open Json

/-! ## The reader of JSON -/

namespace Settings

variable {slot : Slot} {value : Option HostValue}

theorem enabled?_eq_some_iff (h : slot.Holds value) {b : Bool} :
    enabled? slot = some b ↔ value = some (.bool b) ∨ value = none ∧ b = true := by
  cases h with
  | missing => simp [enabled?, eq_comm]
  | once h => cases h <;> simp [enabled?]

theorem capacity?_of_ne_int {n : Numeral} (h : ∀ i, n.number? ≠ some (.int i)) :
    capacity? (.once (.number n)) = none := by
  rw [capacity?]
  split
  next i hi => exact absurd hi (h i)
  next => rfl

theorem capacity?_ofInt_eq_some_iff {i : Int} {n : Nat} :
    capacity? (.once (.number (.ofInt i))) = some n ↔ i = n ∧ n < 2 ^ 64 := by
  by_cases hrange : Int64.minValue.toInt ≤ i ∧ i < UInt64.size
  · rw [capacity?, Numeral.number?_ofInt hrange.1 hrange.2]
    simp [UInt64.size] at hrange ⊢
    omega
  · -- The reader takes such an integer for a floating-point number.
    have hnone : capacity? (.once (.number (.ofInt i))) = none :=
      capacity?_of_ne_int fun j hj => hrange (Numeral.number?_ofInt_eq_int_iff.1 hj).2
    rw [hnone]
    simp [UInt64.size] at hrange ⊢
    omega

theorem capacity?_eq_some_iff (h : slot.Holds value) {n : Nat} :
    capacity? slot = some n ↔
      (value = some (.int n) ∧ n < 2 ^ 64) ∨ value = none ∧ n = 2048 := by
  cases h with
  | missing => simp [capacity?, defaultCapacity, eq_comm]
  | once h =>
      cases h with
      | int i => simp [capacity?_ofInt_eq_some_iff]
      | @float x m hjson hfloat =>
          have hnone : capacity? (.once (.number m)) = none := by
            refine capacity?_of_ne_int fun i hi => ?_
            obtain ⟨y, hy⟩ := hfloat.eq_float hi
            cases hy
          simp [hnone]
      | _ => simp [capacity?]

theorem ofSlots?_eq_some_iff {enabled capacity : Slot} {s : Settings} :
    ofSlots? enabled capacity = some s ↔
      enabled? enabled = some s.cacheEnabled ∧ capacity? capacity = some s.cacheCapacity := by
  obtain ⟨b, n⟩ := s
  rw [ofSlots?]
  cases enabled? enabled <;> cases capacity? capacity <;> simp

/-- Whatever is not read is refused as unreadable. -/
theorem ofJson_eq_error {text : String} (h : ∀ s, ofJson text ≠ .ok s) :
    ofJson text = .error (.faultyData .unreadable) := by
  rw [ofJson] at h ⊢
  split
  next s hs => exact absurd (by rw [hs]) (h s)
  next => rfl

end Settings

/-! ## What a dictionary says -/

namespace HostDict

/-- A dictionary says whether the cache is enabled; by default it is. -/
def Enables (d : HostDict) (b : Bool) : Prop :=
  d.find? "cache_enabled" = some (.bool b) ∨ d.find? "cache_enabled" = none ∧ b = true

/-- A dictionary says what the capacity of the cache is, in 64 bits; by default it is 2048. -/
def Bounds (d : HostDict) (n : Nat) : Prop :=
  (d.find? "cache_capacity" = some (.int n) ∧ n < 2 ^ 64) ∨
    d.find? "cache_capacity" = none ∧ n = 2048

/-- A dictionary describes settings. -/
def Describes (d : HostDict) (s : Settings) : Prop :=
  d.Enables s.cacheEnabled ∧ d.Bounds s.cacheCapacity

/-- A JSON text is a way to write a dictionary, with any blanks and escapes. -/
def WrittenAs (d : HostDict) (text : String) : Prop :=
  ∃ doc, (HostValue.dict d).Renders doc ∧ doc.Spells text.toList

variable {d : HostDict}

theorem exists_writtenAs (h : (HostValue.dict d).IsPlain) : ∃ text, d.WrittenAs text := by
  obtain ⟨doc, hwritable, hrenders⟩ := h.exists_renders
  refine ⟨String.ofList doc.text, doc, hrenders, ?_⟩
  rw [String.toList_ofList]
  exact Document.spells_text hwritable

/-- From JSON, the settings are read that the dictionary describes. -/
theorem ofJson_eq_ok_iff (hd : d.IsDistinct) {text : String} (h : d.WrittenAs text)
    {s : Settings} : Settings.ofJson text = .ok s ↔ d.Describes s := by
  obtain ⟨doc, hrenders, htext⟩ := h
  cases hrenders with
  | @dict _ named others members hnamed hothers hmembers =>
      have hfind (key : String) : (Slot.find [key] others).Holds (d.find? key) := by
        rw [Slot.find_perm [key] hothers]
        exact Slot.holds_find hnamed hd key
      have hslots : Settings.ofJson text = .ok s ↔ Settings.ofSlots?
          (Slot.find ["cache_enabled"] others) (Slot.find ["cache_capacity"] others) = some s := by
        rw [Settings.ofJson, htext.parse?, Option.bind_some, Settings.ofDocument?, hmembers,
          Option.bind_some]
        split
        next hs => rw [hs, Except.ok.injEq, Option.some.injEq]
        next hs => simp [hs]
      rw [hslots, Settings.ofSlots?_eq_some_iff, Settings.enabled?_eq_some_iff (hfind _),
        Settings.capacity?_eq_some_iff (hfind _)]
      rfl

/-! ## The reader of dictionaries -/

theorem cacheEnabled_eq_ok_iff {b : Bool} : d.cacheEnabled = .ok b ↔ d.Enables b := by
  rw [cacheEnabled, Enables]
  cases d.find? "cache_enabled" with
  | none => simp [eq_comm]
  | some value => cases value <;> simp

theorem count?_eq_some_iff {value : HostValue} {n : Nat} :
    count? value = some n ↔
      (value = .int n ∧ n < 2 ^ 64) ∨ ∃ b, value = .bool b ∧ n = b.toNat := by
  cases value with
  | int i =>
      simp [count?, UInt64.size]
      omega
  | bool b => simp [count?, eq_comm]
  | _ => simp [count?]

theorem cacheCapacity_eq_ok_iff {n : Nat} :
    d.cacheCapacity = .ok n ↔
      d.Bounds n ∨ ∃ b, d.find? "cache_capacity" = some (.bool b) ∧ n = b.toNat := by
  rw [cacheCapacity, Bounds]
  cases d.find? "cache_capacity" with
  | none => simp [defaultCapacity, eq_comm]
  | some value =>
      simp only [Option.some.injEq, reduceCtorEq, false_and, or_false, ← count?_eq_some_iff]
      cases count? value <;> simp

theorem settings_eq_ok_iff_of_keys {s : Settings} : d.settings = .ok s ↔
    d.cacheEnabled = .ok s.cacheEnabled ∧ d.cacheCapacity = .ok s.cacheCapacity := by
  obtain ⟨b, n⟩ := s
  rw [settings]
  cases d.cacheEnabled <;> cases d.cacheCapacity <;> simp [Except.map]

/-- From a dictionary, the settings are read that it describes, and further ones where the
capacity is a truth value. -/
theorem settings_eq_ok_iff {s : Settings} : d.settings = .ok s ↔ d.Describes s ∨
    (d.Enables s.cacheEnabled ∧
      ∃ b, d.find? "cache_capacity" = some (.bool b) ∧ s.cacheCapacity = b.toNat) := by
  rw [settings_eq_ok_iff_of_keys, cacheEnabled_eq_ok_iff, cacheCapacity_eq_ok_iff, and_or_left]
  rfl

/-- A truth value is no capacity. -/
theorem not_bounds_of_bool {b : Bool} (h : d.find? "cache_capacity" = some (.bool b)) (n : Nat) :
    ¬ d.Bounds n := by
  rw [Bounds, h]
  simp

/-! ## Both readers -/

/-- A dictionary with distinct keys and plain values can be written as JSON.  Whatever way it is
written, the settings are read from the text that the dictionary describes, and none if it
describes none.  The same settings are read from the dictionary itself, unless the capacity is
a truth value and the other key is right.  In this case the capacity is zero or one for the reader
of dictionaries, and the reader of JSON refuses the text. -/
theorem settings_agree_iff (hd : d.IsDistinct) (hplain : (HostValue.dict d).IsPlain) :
    (∃ text, d.WrittenAs text) ∧ ∀ text, d.WrittenAs text →
      (∀ s, Settings.ofJson text = .ok s ↔ d.Describes s) ∧
      ((∀ s, d.settings = .ok s ↔ Settings.ofJson text = .ok s) ↔
        ∀ b e, d.find? "cache_capacity" = some (.bool b) → ¬ d.Enables e) ∧
      ∀ b e, d.find? "cache_capacity" = some (.bool b) → d.Enables e →
        d.settings = .ok ⟨e, b.toNat⟩ ∧
          Settings.ofJson text = .error (.faultyData .unreadable) := by
  refine ⟨exists_writtenAs hplain, fun text htext => ?_⟩
  have hjson (s : Settings) : Settings.ofJson text = .ok s ↔ d.Describes s :=
    ofJson_eq_ok_iff hd htext
  have hrefused {b : Bool} (hb : d.find? "cache_capacity" = some (.bool b)) (s : Settings) :
      Settings.ofJson text ≠ .ok s :=
    fun hs => not_bounds_of_bool hb s.cacheCapacity ((hjson s).1 hs).2
  have hcounted {b e : Bool} (hb : d.find? "cache_capacity" = some (.bool b))
      (he : d.Enables e) : d.settings = .ok ⟨e, b.toNat⟩ :=
    settings_eq_ok_iff.2 (.inr ⟨he, b, hb, rfl⟩)
  refine ⟨hjson, ⟨fun hagree b e hb he => ?_, fun hnot s => ?_⟩, fun b e hb he => ?_⟩
  · exact hrefused hb _ ((hagree _).1 (hcounted hb he))
  · rw [settings_eq_ok_iff, hjson]
    refine or_iff_left ?_
    rintro ⟨he, b, hb, -⟩
    exact hnot b s.cacheEnabled hb he
  · exact ⟨hcounted hb he, Settings.ofJson_eq_error (hrefused hb)⟩

/-- A capacity, and lists and dictionaries under a key that is not known. -/
theorem settings_agree_nested :
    let n : Nat := 2 ^ 64 - 1
    let inner : HostDict := [(.text "cache_capacity", .text "名"), (.text "x", .none)]
    let d : HostDict := [(.text "other", .list [.float (.ofInt 1), .dict inner]),
      (.text "cache_capacity", .int n)]
    let s : Settings := ⟨true, n⟩
    d.IsDistinct ∧ (HostValue.dict d).IsPlain ∧ (∃ text, d.WrittenAs text) ∧
      d.settings = .ok s ∧ ∀ text, d.WrittenAs text → Settings.ofJson text = .ok s := by
  intro n inner d s
  have hdistinct : d.IsDistinct := by decide
  have hinner : (HostValue.dict inner).IsPlain :=
    .dict (by decide) (List.forall_mem_cons.2 ⟨.text "名", List.forall_mem_singleton.2 .none⟩)
  have hlist : (HostValue.list [.float (.ofInt 1), .dict inner]).IsPlain :=
    .list (List.forall_mem_cons.2 ⟨.float (by decide +kernel), List.forall_mem_singleton.2 hinner⟩)
  have hplain : (HostValue.dict d).IsPlain :=
    .dict (by decide) (List.forall_mem_cons.2 ⟨hlist, List.forall_mem_singleton.2 (.int _)⟩)
  obtain ⟨hexists, hagree⟩ := settings_agree_iff hdistinct hplain
  have hsettings : d.settings = .ok s :=
    settings_eq_ok_iff.2 (.inl ⟨.inr ⟨rfl, rfl⟩, .inl ⟨rfl, by decide⟩⟩)
  refine ⟨hdistinct, hplain, hexists, hsettings, fun text htext => ?_⟩
  refine ((hagree text htext).2.1.2 ?_ s).1 hsettings
  intro b e hb
  cases hb

/-- A truth value as the capacity is one for the one reader, and refused by the other. -/
theorem settings_disagree_bool :
    let d : HostDict := [(.text "cache_capacity", .bool true)]
    let text := "\x7b\"cache_capacity\":true\x7d"
    d.IsDistinct ∧ (HostValue.dict d).IsPlain ∧ d.WrittenAs text ∧
      d.settings = .ok ⟨true, 1⟩ ∧ Settings.ofJson text = .error (.faultyData .unreadable) := by
  intro d text
  let named : List (String × Document) := [("cache_capacity", .bool true)]
  have hplain : (HostValue.dict d).IsPlain :=
    .dict (by decide) (List.forall_mem_singleton.2 (.bool true))
  have hrenders : (HostValue.dict d).Renders (.ofNamed named) :=
    .dict (.cons (.intro _ (.bool true)) .nil) (.refl named) (Document.textMembers?_map named)
  have htext : text.toList = (Document.ofNamed named).text := by decide +kernel
  have hwritten : d.WrittenAs text := by
    refine ⟨.ofNamed named, hrenders, ?_⟩
    rw [htext]
    refine Document.spells_text (Document.isWritable_ofNamed ?_)
    exact List.forall_mem_singleton.2 (List.forall_mem_singleton.2 trivial)
  exact ⟨by decide, hplain, hwritten, rfl, by decide +kernel⟩

end HostDict

end Rulebook
