import Rulebook.Proofs.Process

/-!
# The cache keeps to its settings

All that a call can do to the cache is to set it, to clear it, or to read texts through it
one after the other (`Process.cache_step`).  Reading a text keeps the cache as it is, or adds
the rule of this text (`ParseCache.parse_cases`).  So the settings are always those that were
made last (`Process.settings_after`), and the cache never holds more than they allow
(`Process.fits_after`).
-/

namespace Rulebook

theorem Table.size_insert_le {α : Type} (t : Table α) (key : String) (value : α) :
    (t.insert key value).size ≤ t.size + 1 :=
  Nat.succ_le_succ (List.length_filter_le _ _)

/-! ## One text -/

namespace ParseCache

variable {c : ParseCache} {text : String} {tree : Tree}

/-- The settings of a cache. -/
def settings (c : ParseCache) : Settings := ⟨c.enabled, c.capacity⟩

/-- What reading a text makes of a cache: nothing else, or a cache with one more rule. -/
theorem parse_cases (c : ParseCache) (text : String) :
    (c.parse text).2 = c ∨ ∃ tree, Tree.parse text = .ok tree ∧ c.enabled = true ∧
      0 < c.capacity ∧ (c.parse text).2 = c.remember text tree := by
  unfold parse
  split
  next henabled =>
    split
    next => exact .inl rfl
    next =>
      split
      next => exact .inl rfl
      next tree htree =>
        rcases Nat.eq_zero_or_pos c.capacity with hzero | hpos
        · exact .inl (if_pos hzero)
        · exact .inr ⟨tree, htree, henabled, hpos, rfl⟩
  next => exact .inl rfl

/-- Reading a text that is no rule leaves the cache as it is. -/
theorem parse_of_error {e : Error} (h : Tree.parse text = .error e) :
    (c.parse text).2 = c := by
  rcases c.parse_cases text with hkept | ⟨tree, htree, -⟩
  · exact hkept
  · rw [h] at htree
    cases htree

/-- A text that is no rule is refused by a sound cache, which stays as it is. -/
theorem Sound.parse_of_error (hc : c.Sound) {e : Error} (h : Tree.parse text = .error e) :
    c.parse text = (.error e, c) :=
  Prod.ext ((hc.parse text).1.trans h) (ParseCache.parse_of_error h)

@[simp] theorem settings_parse : (c.parse text).2.settings = c.settings := by
  rcases c.parse_cases text with hkept | ⟨tree, -, -, -, hremember⟩
  · rw [hkept]
  · rw [hremember, remember]
    split <;> rfl

theorem trees_remember (h : 0 < c.capacity) : (c.remember text tree).trees =
    (if c.capacity ≤ c.size then .empty else c.trees).insert text tree := by
  rw [remember, if_neg (Nat.ne_of_gt h)]

/-- A rule that is kept after reading a text was kept before, or is the rule of this text. -/
theorem get?_parse {other : String} {kept : Tree}
    (h : (c.parse text).2.trees.get? other = some kept) :
    c.trees.get? other = some kept ∨ other = text ∧ Tree.parse text = .ok kept := by
  rcases c.parse_cases text with hkept | ⟨tree, htree, -, hpos, hremember⟩
  · rw [hkept] at h
    exact .inl h
  · rw [hremember, trees_remember hpos, Table.get?_insert] at h
    split at h
    next heq =>
      cases h
      exact .inr ⟨heq, htree⟩
    next =>
      split at h
      next =>
        rw [Table.get?_empty] at h
        cases h
      next => exact .inl h

/-- The rule of a text that has been read is kept, if the cache is switched on and keeps
rules at all. -/
theorem Sound.get?_parse_self (hc : c.Sound) (h : Tree.parse text = .ok tree)
    (henabled : c.enabled = true) (hpos : 0 < c.capacity) :
    (c.parse text).2.trees.get? text = some tree := by
  rw [ParseCache.parse, if_pos henabled]
  split
  next kept hkept =>
    have hparse := hc text kept hkept
    rw [h] at hparse
    cases hparse
    exact hkept
  next =>
    rw [h]
    simp only
    rw [trees_remember hpos, Table.get?_insert, if_pos rfl]

/-! ## No more than fits -/

/-- There are no more rules than the capacity, and none if the cache is switched off. -/
structure Fits (c : ParseCache) : Prop where
  size_le : c.size ≤ c.capacity
  size_of_disabled : c.enabled = false → c.size = 0

theorem Fits.of_empty (h : c.trees = .empty) : c.Fits := by
  have hsize : c.size = 0 := by
    rw [size, h]
    rfl
  exact ⟨hsize ▸ Nat.zero_le _, fun _ => hsize⟩

theorem fits_configure (c : ParseCache) (enabled : Bool) (capacity : Nat) :
    (c.configure enabled capacity).Fits := by
  by_cases hforget : (!enabled || decide (capacity < c.size)) = true
  · exact .of_empty (if_pos hforget)
  · have htrees : (c.configure enabled capacity).trees = c.trees := if_neg hforget
    simp only [Bool.or_eq_true, Bool.not_eq_true', decide_eq_true_eq, not_or,
      Bool.not_eq_false, Nat.not_lt] at hforget
    constructor
    · rw [size, htrees]
      exact hforget.2
    · intro hdisabled
      rw [show enabled = false from hdisabled] at hforget
      exact absurd hforget.1 Bool.false_ne_true

/-- A cache that is full is cleared before it takes one more rule. -/
theorem fits_remember (henabled : c.enabled = true) (hpos : 0 < c.capacity) :
    (c.remember text tree).Fits := by
  have hsettings : (c.remember text tree).enabled = c.enabled ∧
      (c.remember text tree).capacity = c.capacity := by
    rw [remember, if_neg (Nat.ne_of_gt hpos)]
    exact ⟨rfl, rfl⟩
  constructor
  · rw [hsettings.2, size, trees_remember hpos]
    refine Nat.le_trans (Table.size_insert_le _ _ _) ?_
    split
    next => exact hpos
    next hroom => exact Nat.lt_of_not_le hroom
  · intro hdisabled
    rw [hsettings.1, henabled] at hdisabled
    cases hdisabled

theorem Fits.parse (h : c.Fits) (text : String) : (c.parse text).2.Fits := by
  rcases c.parse_cases text with hkept | ⟨tree, -, henabled, hpos, hremember⟩
  · rwa [hkept]
  · rw [hremember]
    exact fits_remember henabled hpos

/-! ## Many texts -/

/-- The cache after reading texts one after the other. -/
def afterReading (c : ParseCache) (texts : List String) : ParseCache :=
  texts.foldl (fun c text => (c.parse text).2) c

@[simp] theorem settings_afterReading (c : ParseCache) (texts : List String) :
    (c.afterReading texts).settings = c.settings := by
  induction texts generalizing c with
  | nil => rfl
  | cons text rest ih => exact (ih _).trans settings_parse

theorem Fits.afterReading (h : c.Fits) (texts : List String) : (c.afterReading texts).Fits := by
  induction texts generalizing c with
  | nil => exact h
  | cons text rest ih => exact ih (h.parse text)

/-- A rule that is kept after reading texts was kept before, or is the rule of one of
them. -/
theorem get?_afterReading {texts : List String} {other : String} {kept : Tree}
    (h : (c.afterReading texts).trees.get? other = some kept) :
    c.trees.get? other = some kept ∨ other ∈ texts ∧ Tree.parse other = .ok kept := by
  induction texts generalizing c with
  | nil => exact .inl h
  | cons text rest ih =>
      rcases ih h with hone | ⟨hmem, hparse⟩
      · rcases get?_parse hone with hbefore | ⟨rfl, hparse⟩
        · exact .inl hbefore
        · exact .inr ⟨.head _, hparse⟩
      · exact .inr ⟨.tail _ hmem, hparse⟩

/-- Some of the texts, from the first one on, have been read through the cache. -/
def Reads (c : ParseCache) (texts : List String) (after : ParseCache) : Prop :=
  ∃ read, read <+: texts ∧ after = c.afterReading read

theorem Reads.nothing (c : ParseCache) (texts : List String) : c.Reads texts c :=
  ⟨[], List.nil_prefix, rfl⟩

theorem Reads.cons {texts : List String} {after : ParseCache} (text : String)
    (h : (c.parse text).2.Reads texts after) : c.Reads (text :: texts) after := by
  obtain ⟨read, hread, rfl⟩ := h
  exact ⟨text :: read, (List.prefix_append_right_inj [text]).2 hread, rfl⟩

theorem Reads.one (c : ParseCache) (text : String) (rest : List String) :
    c.Reads (text :: rest) (c.parse text).2 :=
  .cons text (.nothing _ rest)

/-- Texts are read up to the first one that is no rule. -/
theorem reads_parseAll (c : ParseCache) (texts : List String) :
    c.Reads texts (c.parseAll texts).2 := by
  induction texts generalizing c with
  | nil => exact .nothing c []
  | cons text rest ih =>
      have hone := Reads.one c text rest
      have hrest := ih (c.parse text).2
      rw [parseAll]
      generalize hparse : c.parse text = outcome at hone hrest
      obtain ⟨result, c'⟩ := outcome
      cases result with
      | error e => exact hone
      | ok tree =>
          refine .cons text ?_
          rw [hparse]
          exact hrest

theorem reads_conjoinOnto (c : ParseCache) (left : MeasuredTree) (texts : List String) :
    c.Reads texts (c.conjoinOnto left texts).2 := by
  induction texts generalizing c left with
  | nil => exact .nothing c []
  | cons text rest ih =>
      have hone := Reads.one c text rest
      have hrest := ih (c.parse text).2
      rw [conjoinOnto]
      generalize hparse : c.parse text = outcome at hone hrest
      obtain ⟨result, c'⟩ := outcome
      cases result with
      | error e => exact hone
      | ok right =>
          simp only
          cases MeasuredTree.join .and left right.measured with
          | error e => exact hone
          | ok joined =>
              refine .cons text ?_
              rw [hparse]
              exact hrest joined

end ParseCache

/-! ## Calls -/

/-- The texts that a rule is read from. -/
def Source.texts : Source → List String
  | .single text => [text]
  | .combined texts => texts
  | .conjoined texts => texts

theorem ParseCache.reads_read (c : ParseCache) (source : Source) :
    c.Reads source.texts (c.read source).2 := by
  cases source with
  | single text => exact .one c text []
  | combined texts =>
      have hall := c.reads_parseAll texts
      rw [read, combine]
      generalize c.parseAll texts = outcome at hall
      obtain ⟨result, c'⟩ := outcome
      cases result <;> exact hall
  | conjoined texts =>
      cases texts with
      | nil => exact .nothing c []
      | cons text rest =>
          have hone := Reads.one c text rest
          have hrest := (c.parse text).2.reads_conjoinOnto
          rw [read, conjoin]
          generalize hparse : c.parse text = outcome at hone hrest
          obtain ⟨result, c'⟩ := outcome
          cases result with
          | error e => exact hone
          | ok tree =>
              refine .cons text ?_
              rw [hparse]
              exact hrest tree.measured rest

namespace Call

/-- The settings that a call makes for the cache. -/
def settings? : Call → Option Settings
  | .configure enabled capacity => some ⟨enabled, capacity⟩
  | .newEngine settings => some settings
  | _ => none

/-- What a call makes of the cache before it reads any text. -/
def prepare (c : ParseCache) : Call → ParseCache
  | .configure enabled capacity => c.configure enabled capacity
  | .newEngine settings => settings.configure c
  | .clear => c.clear
  | _ => c

/-- The texts that a call reads rules from. -/
def texts : Call → List String
  | .read source => source.texts
  | .compile source => source.texts
  | .check text _ => [text]
  | .create _ _ text => [text]
  | _ => []

/-- The text of a call that reads a single one. -/
def text? : Call → Option String
  | .read (.single text) => some text
  | .compile (.single text) => some text
  | .check text _ => some text
  | .create _ _ text => some text
  | _ => none

theorem settings_prepare (c : ParseCache) (call : Call) :
    (call.prepare c).settings = call.settings?.getD c.settings := by
  cases call <;> rfl

theorem fits_prepare {c : ParseCache} (h : c.Fits) (call : Call) : (call.prepare c).Fits := by
  cases call with
  | configure enabled capacity => exact c.fits_configure enabled capacity
  | newEngine settings => exact c.fits_configure _ _
  | clear => exact .of_empty rfl
  | _ => exact h

end Call

/-- The settings that calls make last. -/
def lastSettings (initial : Settings) (calls : List Call) : Settings :=
  calls.foldl (fun settings call => call.settings?.getD settings) initial

theorem Engine.cache_create (engine : Engine) (c : ParseCache) (name text : String) :
    (engine.create c name text).2.2 = (c.parse text).2 := by
  rw [create]
  generalize c.parse text = outcome
  obtain ⟨result, c'⟩ := outcome
  cases result with
  | error e => rfl
  | ok tree =>
      simp only
      cases engine.store.add name tree.portable <;> rfl

theorem ParseCache.cache_check (c : ParseCache) (text : String) (record : Record) :
    (c.check text record).2 = if Text.isBlankText text then c else (c.parse text).2 := by
  rw [check]
  split
  next => rfl
  next =>
    generalize c.parse text = outcome
    obtain ⟨result, c'⟩ := outcome
    cases result <;> rfl

namespace Process

/-- All that a call can do to the cache is to set or to clear it, and to read texts through
it. -/
theorem cache_step (p : Process) (call : Call) :
    (call.prepare p.cache).Reads call.texts (p.step call).2.cache := by
  cases call with
  | read source => exact p.cache.reads_read source
  | compile source => exact p.cache.reads_read source
  | check text record =>
      have hone := ParseCache.Reads.one p.cache text []
      show p.cache.Reads [text] (p.cache.check text record).2
      rw [ParseCache.cache_check]
      split
      next => exact .nothing _ _
      next => exact hone
  | create i name text =>
      have hone := ParseCache.Reads.one p.cache text []
      rw [step]
      split
      next => exact .nothing _ _
      next engine _ =>
        rw [← engine.cache_create p.cache name text] at hone
        exact hone
  | ask i query =>
      rw [step]
      split <;> exact .nothing _ _
  | _ => exact .nothing _ _

theorem settings_step (p : Process) (call : Call) :
    (p.step call).2.cache.settings = call.settings?.getD p.cache.settings := by
  obtain ⟨read, -, hcache⟩ := p.cache_step call
  rw [hcache, ParseCache.settings_afterReading, call.settings_prepare]

theorem fits_step {p : Process} (h : p.cache.Fits) (call : Call) :
    (p.step call).2.cache.Fits := by
  obtain ⟨read, -, hcache⟩ := p.cache_step call
  rw [hcache]
  exact (call.fits_prepare h).afterReading read

/-- The settings of the cache are those that calls have made last. -/
theorem settings_after (p : Process) (calls : List Call) :
    (p.after calls).cache.settings = lastSettings p.cache.settings calls := by
  induction calls generalizing p with
  | nil => rfl
  | cons call rest ih =>
      have hstep := p.settings_step call
      rw [lastSettings, List.foldl_cons, ← hstep]
      exact ih _

/-- The cache never holds more than its settings allow. -/
theorem fits_after {p : Process} (h : p.cache.Fits) (calls : List Call) :
    (p.after calls).cache.Fits := by
  induction calls generalizing p with
  | nil => exact h
  | cons call rest ih => exact ih (fits_step h call)

/-! ## Calls on a single text -/

/-- A call on a text that is no rule changes nothing. -/
theorem step_of_error {p : Process} (hc : p.cache.Sound) {call : Call} {text : String}
    {e : Error} (hcall : call.text? = some text) (h : Tree.parse text = .error e) :
    (p.step call).2 = p := by
  have hparse := hc.parse_of_error h
  unfold Call.text? at hcall
  split at hcall
  next =>
    cases hcall
    simp only [step, ParseCache.read, hparse]
  next =>
    cases hcall
    simp only [step, ParseCache.read, hparse]
  next record =>
    cases hcall
    simp only [step, ParseCache.cache_check, hparse, ite_self]
  next i name text =>
    cases hcall
    simp only [step, Engine.create, hparse]
    split
    next => rfl
    next engine hengine =>
      obtain ⟨hi, rfl⟩ := List.getElem?_eq_some_iff.1 hengine
      rw [List.set_getElem_self hi]
  next => cases hcall

/-- A call on a text that is a rule leaves this rule in the cache, if the cache is switched on
and keeps rules at all. -/
theorem get?_step {p : Process} (hc : p.cache.Sound) {call : Call} {text : String} {tree : Tree}
    (hcall : call.text? = some text) (hdone : (p.step call).1 ≠ .noEngine)
    (h : Tree.parse text = .ok tree) (henabled : p.cache.enabled = true)
    (hpos : 0 < p.cache.capacity) :
    (p.step call).2.cache.trees.get? text = some tree := by
  have hkept := hc.get?_parse_self h henabled hpos
  unfold Call.text? at hcall
  split at hcall
  next =>
    cases hcall
    exact hkept
  next =>
    cases hcall
    exact hkept
  next record =>
    cases hcall
    have hblank : Text.isBlankText text = false := by
      rw [Bool.eq_false_iff]
      intro hblank
      rw [(Tree.parse_eq_emptyRule_iff text).2 hblank] at h
      cases h
    simp only [step, ParseCache.cache_check, hblank, Bool.false_eq_true, if_false]
    exact hkept
  next i name _ =>
    cases hcall
    rw [step] at hdone ⊢
    split
    next hnone =>
      rw [hnone] at hdone
      exact absurd rfl hdone
    next engine _ =>
      rw [← engine.cache_create] at hkept
      exact hkept
  next => cases hcall

/-- After any calls that start from an empty cache, it has the settings that were made last.
It holds no more rules than its capacity, none if it is switched off, and only rules of their
texts.  A call on a text that is no rule then changes nothing, and one on a rule leaves it in
the cache, if it is switched on and keeps rules at all. -/
theorem cache_keeps_to_settings (engines : List Engine) (initial : Settings)
    (calls : List Call) :
    let start : Process := ⟨engines, initial.cacheEnabled, initial.cacheCapacity, .empty⟩
    let p := start.after calls
    let settings := lastSettings initial calls
    p.cache.settings = settings ∧ p.cache.size ≤ settings.cacheCapacity ∧
      (settings.cacheEnabled = false → p.cache.size = 0) ∧
      (∀ text ∈ p.cache.trees.keys, ∃ tree, Tree.parse text = .ok tree) ∧
      ∀ call text, call.text? = some text →
        (∀ e, Tree.parse text = .error e → (p.step call).2 = p) ∧
        ∀ tree, Tree.parse text = .ok tree → (p.step call).1 ≠ .noEngine →
          settings.cacheEnabled = true → 0 < settings.cacheCapacity →
          (p.step call).2.cache.trees.get? text = some tree := by
  intro start p settings
  have hsound : p.cache.Sound := sound_after (.of_empty rfl) calls
  have hfits : p.cache.Fits := fits_after (.of_empty rfl) calls
  have hsettings : p.cache.settings = settings := start.settings_after calls
  rw [← hsettings]
  refine ⟨rfl, hfits.size_le, hfits.size_of_disabled, ?_, ?_⟩
  · intro text htext
    obtain ⟨tree, htree⟩ := Table.mem_keys_iff.1 htext
    exact ⟨tree, hsound text tree htree⟩
  · intro call text hcall
    exact ⟨fun e he => step_of_error hsound hcall he, fun tree htree hdone henabled hpos =>
      get?_step hsound hcall hdone htree henabled hpos⟩

/-- The third rule finds the cache full. -/
example : (start.after [.configure true 2, .read (.single "a > 1"), .check "b > 1" .empty,
    .read (.combined ["c > 1", "d >"])]).cache.trees.keys = ["c > 1"] := by
  decide +kernel

end Process

end Rulebook
