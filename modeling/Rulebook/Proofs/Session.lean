import Mathlib.Data.List.DropRight
import Rulebook.Session
import Rulebook.Proofs.Blame
import Rulebook.Proofs.Capacity

/-!
# What a session knows

A session makes the calls of its host one after the other (`Session.step`,
`Session.after`), which are noted with their answers (`Session.trace`).  A call can start the
engine anew, create one rule, or leave the engine as it is (`Session.Turns`,
`Session.turns_step`).  So the engine knows the names of the rules that have been created
since it was started last (`Session.knows_after`).

A name that is not known is told apart from all faults of the rules themselves
(`Engine.load_eq_ruleNotFound_iff`).
-/

namespace Rulebook

/-! ## Names that are not known -/

namespace Engine

/-- A rule is not found exactly where nothing has its name. -/
theorem load_eq_ruleNotFound_iff {engine : Engine} {name other : String} :
    engine.load name = .error (.ruleNotFound other) ↔
      engine.store.texts.get? name = none ∧ other = name := by
  cases htext : engine.store.texts.get? name with
  | none =>
      rw [load, Store.load, htext]
      simp [eq_comm]
  | some text =>
      simp only [reduceCtorEq, false_and, iff_false]
      intro hload
      rcases load_eq_error_iff.1 hload with hstore | ⟨p, -, hfirst⟩
      · rw [Store.load_of_get? htext] at hstore
        cases PortableTree.eq_unreadable_of_ofJson hstore
      · rcases PortableTree.isClientError_of_firstFault? hfirst with hdata | ⟨symbol, hsymbol⟩
        · cases hdata
        · cases hsymbol

theorem evaluate_eq_ruleNotFound_iff {engine : Engine} {name other : String} {record : Record} :
    engine.evaluate name record = .error (.ruleNotFound other) ↔
      engine.store.texts.get? name = none ∧ other = name := by
  rw [← load_eq_ruleNotFound_iff, evaluate]
  cases engine.load name with
  | error e => simp only [Except.error.injEq]
  | ok root =>
      simp only [reduceCtorEq, iff_false]
      intro h
      cases isOfEvaluation h

end Engine

namespace Session

/-! ## Calls -/

/-- A call of the host. -/
inductive Call where
  /-- Starts the engine. -/
  | start (dict : Option HostDict)
  /-- Asks whether there is an engine. -/
  | ready
  /-- Reads a rule. -/
  | parse (text : String)
  /-- Combines rules by the operator of the majority. -/
  | combine (texts : List String)
  /-- Combines rules by AND. -/
  | conjoin (texts : List String)
  /-- Evaluates a rule that has been read. -/
  | evaluateTree (tree : Tree) (dict : HostDict)
  /-- Evaluates the rule of a JSON text. -/
  | evaluateJson (json : String) (dict : HostDict)
  /-- Asks for the fields of the rule of a JSON text. -/
  | fieldsOfJson (json : String)
  /-- Creates a rule under a name. -/
  | create (name text : String)
  /-- Evaluates the rule under a name. -/
  | evaluateRule (name : String) (dict : HostDict)
  /-- Asks for an evaluation of the rule under a name, which is run at once. -/
  | request (name : String) (dict : HostDict)
  /-- Asks for the fields of the rule under a name. -/
  | ruleFields (name : String)

namespace Call

/-- Whether a call is about the rule under a name. -/
def isNamed : Call → Bool
  | create _ _ | evaluateRule _ _ | request _ _ | ruleFields _ => true
  | _ => false

/-- The texts that a call reads rules from. -/
def texts : Call → List String
  | parse text => [text]
  | combine texts => texts
  | conjoin texts => texts
  | create _ text => [text]
  | _ => []

end Call

/-- What a call gives. -/
inductive Answer where
  | started (result : Except SessionFault Unit)
  | ready (isReady : Bool)
  | tree (result : Except SessionFault Tree)
  | verdict (result : Except SessionFault Bool)
  | fields (result : Except SessionFault (List String))

namespace Answer

/-- The fault that a call ends in, if it does. -/
def fault? : Answer → Option SessionFault
  | started (.error f) | tree (.error f) | verdict (.error f) | fields (.error f) => some f
  | _ => none

/-- A call does not know a name. -/
def NotFound (a : Answer) : Prop := ∃ name, a.fault? = some (.engine (.ruleNotFound name))

end Answer

/-- What one call gives, and the session after it. -/
def step (s : Session) : Call → Answer × Session
  | .start dict => (s.start dict).map .started id
  | .ready => (.ready s.isReady, s)
  | .parse text => (s.parse text).map .tree id
  | .combine texts => (s.combine texts).map .tree id
  | .conjoin texts => (s.conjoin texts).map .tree id
  | .evaluateTree tree dict => (.verdict (evaluateTree tree dict), s)
  | .evaluateJson json dict => (.verdict (evaluateJson json dict), s)
  | .fieldsOfJson json => (.fields (fieldsOfJson json), s)
  | .create name text => (s.create name text).map .tree id
  | .evaluateRule name dict => (.verdict (s.evaluateRule name dict), s)
  | .request name dict => (.verdict ((s.request name dict).bind s.run), s)
  | .ruleFields name => (.fields (s.ruleFields name), s)

/-- The session after calls. -/
def after (s : Session) (calls : List Call) : Session :=
  calls.foldl (fun s call => (s.step call).2) s

/-- Calls with their answers. -/
def trace (s : Session) : List Call → List (Call × Answer)
  | [] => []
  | call :: rest => (call, (s.step call).1) :: (s.step call).2.trace rest

theorem after_concat (s : Session) (calls : List Call) (call : Call) :
    s.after (calls ++ [call]) = ((s.after calls).step call).2 :=
  List.foldl_concat _ _ _ _

theorem trace_concat (s : Session) (calls : List Call) (call : Call) :
    s.trace (calls ++ [call]) = s.trace calls ++ [(call, ((s.after calls).step call).1)] := by
  induction calls generalizing s with
  | nil => rfl
  | cons first rest ih => exact congrArg _ (ih _)

/-- A call with its answer starts the engine. -/
def starts : Call × Answer → Bool
  | (.start _, .started (.ok _)) => true
  | _ => false

/-- The name under which a call with its answer creates a rule. -/
def created? : Call × Answer → Option String
  | (.create name _, .tree (.ok _)) => some name
  | _ => none

/-- The calls since the engine was started last. -/
def sinceStart (log : List (Call × Answer)) : List (Call × Answer) :=
  log.rtakeWhile fun entry => !starts entry

/-- The names under which rules have been created since the engine was started last. -/
def createdNames (log : List (Call × Answer)) : List String :=
  (sinceStart log).filterMap created?

/-! ## What a call makes of the engine -/

/-- What a call with its answer makes of an engine: nothing else, a new engine, or one with
one more rule. -/
inductive Turns : Option Engine → Call × Answer → Option Engine → Prop where
  | started {engine : Option Engine} {dict : Option HostDict} (settings : Settings) :
      Turns engine (.start dict, .started (.ok ())) (some (.fresh settings))
  | created {engine : Engine} {name text : String} {tree : Tree} {store : Store}
      (h : engine.store.add name tree.portable = .ok store) :
      Turns (some engine) (.create name text, .tree (.ok tree)) (some { engine with store })
  | kept {engine : Option Engine} {entry : Call × Answer} (hstarts : starts entry = false)
      (hcreated : created? entry = none) : Turns engine entry engine

theorem Turns.of_fault {engine : Option Engine} {call : Call} {answer : Answer}
    {fault : SessionFault} (h : answer.fault? = some fault) :
    Turns engine (call, answer) engine := by
  unfold Answer.fault? at h
  split at h
  next => exact .kept (by cases call <;> rfl) (by cases call <;> rfl)
  next => exact .kept (by cases call <;> rfl) (by cases call <;> rfl)
  next => exact .kept (by cases call <;> rfl) (by cases call <;> rfl)
  next => exact .kept (by cases call <;> rfl) (by cases call <;> rfl)
  next => cases h

theorem turns_start (s : Session) (dict : Option HostDict) :
    Turns s.engine (.start dict, (s.step (.start dict)).1)
      (s.step (.start dict)).2.engine := by
  rw [step, start]
  split
  next => exact .of_fault rfl
  next settings _ => exact .started settings

theorem turns_create (s : Session) (name text : String) :
    Turns s.engine (.create name text, (s.step (.create name text)).1)
      (s.step (.create name text)).2.engine := by
  obtain ⟨engine, cache⟩ := s
  cases engine with
  | none => exact .of_fault rfl
  | some engine =>
      simp only [step, create, Engine.create]
      generalize cache.parse text = outcome
      obtain ⟨result, cache'⟩ := outcome
      cases result with
      | error e => exact .of_fault rfl
      | ok tree =>
          simp only
          cases hadd : engine.store.add name tree.portable with
          | error e => exact .of_fault rfl
          | ok store => exact .created hadd

/-- What one call makes of the engine. -/
theorem turns_step (s : Session) (call : Call) :
    Turns s.engine (call, (s.step call).1) (s.step call).2.engine := by
  cases call with
  | start dict => exact s.turns_start dict
  | create name text => exact s.turns_create name text
  | _ => exact .kept rfl rfl

/-- A call that fails leaves the engine as it is. -/
theorem engine_of_fault {s : Session} {call : Call} {fault : SessionFault}
    (h : (s.step call).1.fault? = some fault) : (s.step call).2.engine = s.engine := by
  have hturns := s.turns_step call
  generalize (s.step call).1 = answer at h hturns
  generalize (s.step call).2.engine = after at hturns
  generalize s.engine = before at hturns
  cases hturns with
  | started => cases h
  | created => cases h
  | kept => rfl

/-- A call that fails at most reads texts through the cache. -/
theorem reads_of_fault {s : Session} {call : Call} {fault : SessionFault}
    (h : (s.step call).1.fault? = some fault) :
    s.cache.Reads call.texts (s.step call).2.cache := by
  cases call with
  | start dict =>
      rw [step, start] at h ⊢
      split
      next => exact .nothing _ _
      next hsettings =>
        rw [hsettings] at h
        cases h
  | parse text => exact s.cache.reads_read (.single text)
  | combine texts => exact s.cache.reads_read (.combined texts)
  | conjoin texts => exact s.cache.reads_read (.conjoined texts)
  | create name text =>
      obtain ⟨engine, cache⟩ := s
      cases engine with
      | none => exact .nothing _ _
      | some engine =>
          have hone := ParseCache.Reads.one cache text []
          rw [← engine.cache_create cache name text] at hone
          exact hone
  | _ => exact .nothing _ _

/-! ## What the engine knows -/

/-- An engine has a rule under a name. -/
def Knows (engine : Option Engine) (name : String) : Prop :=
  ∃ e ∈ engine, e.store.texts.get? name ≠ none

theorem createdNames_concat (log : List (Call × Answer)) (entry : Call × Answer) :
    createdNames (log ++ [entry]) =
      if starts entry then [] else createdNames log ++ (created? entry).toList := by
  rw [createdNames, sinceStart, List.rtakeWhile_concat]
  cases starts entry with
  | true => rfl
  | false =>
      rw [Bool.not_false, if_pos rfl, List.filterMap_append]
      cases hcreated : created? entry <;> simp [hcreated, createdNames, sinceStart]

/-- A call keeps what the engine knows in step with the log. -/
theorem Turns.knows_iff {before after : Option Engine} {entry : Call × Answer}
    {log : List (Call × Answer)} {name : String} (h : Turns before entry after)
    (hlog : Knows before name ↔ name ∈ createdNames log) :
    Knows after name ↔ name ∈ createdNames (log ++ [entry]) := by
  rw [createdNames_concat]
  cases h with
  | started settings => simp [starts, Knows, Engine.fresh, Store.empty]
  | @created engine created text tree store hadd =>
      obtain ⟨-, -, rfl⟩ := Store.add_eq_ok_iff.1 hadd
      have hstarts : starts (.create created text, .tree (.ok tree)) = false := rfl
      have hcreated : created? (.create created text, .tree (.ok tree)) = some created := rfl
      rw [hstarts, hcreated, if_neg Bool.false_ne_true, List.mem_append, ← hlog]
      simp only [Knows, Option.mem_def, Option.some.injEq, exists_eq_left', Table.get?_insert,
        Option.toList_some, List.mem_singleton]
      by_cases hname : name = created <;> simp [hname]
  | kept hstarts hcreated =>
      rw [hstarts, hcreated, if_neg Bool.false_ne_true, Option.toList_none, List.append_nil]
      exact hlog

/-- The engine knows the names that have been created since it was started last. -/
theorem knows_after (calls : List Call) (name : String) :
    Knows (fresh.after calls).engine name ↔ name ∈ createdNames (fresh.trace calls) := by
  induction calls using List.reverseRecOn with
  | nil => simp [Knows, after, fresh, trace, createdNames, sinceStart]
  | append_singleton calls call ih =>
      rw [after_concat, trace_concat]
      exact ((fresh.after calls).turns_step call).knows_iff ih

theorem Turns.isSome {before after : Option Engine} {entry : Call × Answer}
    (h : Turns before entry after) : after.isSome = (before.isSome || starts entry) := by
  cases h with
  | started => simp [starts]
  | created => rfl
  | kept hstarts => rw [hstarts, Bool.or_false]

/-- There is an engine once one has been started. -/
theorem isReady_after (calls : List Call) :
    (fresh.after calls).isReady = (fresh.trace calls).any starts := by
  induction calls using List.reverseRecOn with
  | nil => rfl
  | append_singleton calls call ih =>
      have hturns := ((fresh.after calls).turns_step call).isSome
      rw [after_concat, trace_concat, List.any_append, ← ih, List.any_cons, List.any_nil,
        Bool.or_false]
      exact hturns

/-! ## Named rules -/

theorem lift_eq_error_iff {α : Type} {result : Except Error α} {e : Error} :
    lift result = .error (.engine e) ↔ result = .error e := by
  cases result <;> simp [lift]

theorem Answer.notFound_verdict_iff {result : Except SessionFault Bool} :
    (verdict result).NotFound ↔ ∃ name, result = .error (.engine (.ruleNotFound name)) := by
  cases result <;> simp [NotFound, fault?]

theorem Answer.notFound_fields_iff {result : Except SessionFault (List String)} :
    (fields result).NotFound ↔ ∃ name, result = .error (.engine (.ruleNotFound name)) := by
  cases result <;> simp [NotFound, fault?]

/-- An entry of a dictionary that has no value is not taken for a name that is not known. -/
theorem ne_ruleNotFound_of_addTo {record : Record} {dict : HostDict} {fault : SessionFault}
    (h : HostDict.addTo record dict = .error fault) (name : String) :
    fault ≠ .engine (.ruleNotFound name) := by
  induction dict generalizing record with
  | nil => cases h
  | cons entry rest ih =>
      obtain ⟨key, value⟩ := entry
      cases key with
      | other =>
          cases h
          exact nofun
      | broken t =>
          cases h
          exact nofun
      | text field =>
          rw [HostDict.addTo] at h
          split at h
          next f hvalue =>
            cases h
            rintro rfl
            unfold HostValue.fieldValue at hvalue
            grind
          next => exact ih h

/-- Without an engine no call about a named rule succeeds. -/
theorem notReady_of_isNamed {s : Session} (h : s.isReady = false) {call : Call}
    (hcall : call.isNamed = true) : (s.step call).1.fault? = some .notReady := by
  obtain ⟨engine, cache⟩ := s
  have hnone : engine = none := Option.isNone_iff_eq_none.1 (Option.isSome_eq_false_iff.1 h)
  subst hnone
  cases call with
  | create | evaluateRule | request | ruleFields => rfl
  | _ => cases hcall

/-- An evaluation that is asked for and run at once is the evaluation. -/
theorem step_request (s : Session) (name : String) (dict : HostDict) :
    s.step (.request name dict) = s.step (.evaluateRule name dict) := by
  obtain ⟨engine, cache⟩ := s
  simp only [step, request, evaluateRule]
  cases engine with
  | none => rfl
  | some engine => cases HostDict.record dict <;> rfl

section Ready

variable {s : Session} {engine : Engine}

theorem notFound_ruleFields_iff (h : s.engine = some engine) (name : String) :
    (s.step (.ruleFields name)).1.NotFound ↔ engine.store.texts.get? name = none := by
  rw [step, ruleFields, h]
  simp only [Answer.notFound_fields_iff, lift_eq_error_iff, Engine.fields_eq_error_iff,
    Engine.load_eq_ruleNotFound_iff, exists_and_left, exists_eq, and_true]

/-- A dictionary that is no record is at fault before the name is looked up. -/
theorem notFound_evaluateRule_iff (h : s.engine = some engine) (name : String)
    (dict : HostDict) : (s.step (.evaluateRule name dict)).1.NotFound ↔
      engine.store.texts.get? name = none ∧ ∃ record, HostDict.record dict = .ok record := by
  rw [step, evaluateRule, h]
  cases hrecord : HostDict.record dict with
  | error f =>
      simp only [Answer.notFound_verdict_iff, Except.error.injEq, reduceCtorEq, exists_false,
        and_false, iff_false, not_exists]
      exact ne_ruleNotFound_of_addTo hrecord
  | ok record =>
      simp only [Answer.notFound_verdict_iff, lift_eq_error_iff,
        Engine.evaluate_eq_ruleNotFound_iff, exists_and_left, exists_eq, and_true,
        Except.ok.injEq, exists_eq']

end Ready

/-- In a session that makes any calls, a call that fails leaves the engine and the settings of
the cache as they are, and only its own texts that are rules can be in the cache afterwards and
not before.  There is an engine once a call has started one, and until then all calls about
named rules fail for it.  From then on a name is known, to the evaluation of its rule and to the
question for its fields, exactly if a rule has been created under it since the engine was
started last.  An evaluation that is asked for and run at once gives what the evaluation
gives. -/
theorem sees_rules_created_since_start (calls : List Call) :
    let s := fresh.after calls
    let log := fresh.trace calls
    (∀ call fault, (s.step call).1.fault? = some fault →
      (s.step call).2.engine = s.engine ∧
      (s.step call).2.cache.settings = s.cache.settings ∧
      ∀ text tree, (s.step call).2.cache.trees.get? text = some tree →
        s.cache.trees.get? text = some tree ∨
          text ∈ call.texts ∧ Tree.parse text = .ok tree) ∧
    (s.step .ready).1 = .ready (log.any starts) ∧
    (log.any starts = false → ∀ call, call.isNamed = true →
      (s.step call).1.fault? = some .notReady ∧ SessionFault.notReady.category = .failure) ∧
    (log.any starts = true → ∀ name,
      (name ∈ createdNames log ↔ ¬ (s.step (.ruleFields name)).1.NotFound) ∧
      (name ∈ createdNames log ↔ ∀ dict, ¬ (s.step (.evaluateRule name dict)).1.NotFound) ∧
      ∀ dict record, HostDict.record dict = .ok record →
        (name ∈ createdNames log ↔ ¬ (s.step (.evaluateRule name dict)).1.NotFound)) ∧
    ∀ name dict, s.step (.request name dict) = s.step (.evaluateRule name dict) := by
  intro s log
  have hready : s.isReady = log.any starts := isReady_after calls
  refine ⟨?_, congrArg Answer.ready hready, ?_, ?_, s.step_request⟩
  · intro call fault hfault
    obtain ⟨read, hread, hcache⟩ := reads_of_fault hfault
    rw [hcache]
    refine ⟨engine_of_fault hfault, s.cache.settings_afterReading read, ?_⟩
    intro text tree hkept
    refine (ParseCache.get?_afterReading hkept).imp_right ?_
    exact fun ⟨hmem, hparse⟩ => ⟨hread.subset hmem, hparse⟩
  · intro hnone call hcall
    exact ⟨notReady_of_isNamed (hready.trans hnone) hcall, rfl⟩
  · intro hstarted name
    obtain ⟨engine, hengine⟩ := Option.isSome_iff_exists.1 (hready.trans hstarted)
    have hknown : name ∈ createdNames log ↔ engine.store.texts.get? name ≠ none := by
      rw [← knows_after calls name, Knows, hengine]
      simp
    have hempty : HostDict.record [] = .ok .empty := rfl
    simp only [notFound_ruleFields_iff hengine, notFound_evaluateRule_iff hengine, hknown]
    refine ⟨trivial, ?_, ?_⟩
    · constructor
      · exact fun hbound dict h => hbound h.1
      · exact fun hfound hnone => hfound [] ⟨hnone, .empty, hempty⟩
    · intro dict record hrecord
      simp [hrecord]

/-- The first rule is gone with the engine that it was created in. -/
example : createdNames (fresh.trace [.start none, .create "r" "a > 1", .start (some []),
    .create "s" "a >", .create "t" "a > 1"]) = ["t"] := by
  decide +kernel

end Session

end Rulebook
