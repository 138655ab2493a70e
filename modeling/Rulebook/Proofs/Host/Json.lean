import Rulebook.Proofs.Binary64.Numeral
import Rulebook.Proofs.Host.Dictionary
import Rulebook.Proofs.Portable.Rendering

/-!
# Values of the host as JSON

JSON has some of the values of the host (`HostValue.IsPlain`), with texts that have no surrogates.
They can be written as JSON (`HostValue.IsPlain.exists_renders`), and mostly in many ways
(`HostValue.Renders`): units of texts are escaped or not, numbers have more or fewer digits, and
the members of objects come in any order.

Whichever way is taken, what stands under a key of an object is a way to write the value of this
key in the dictionary (`Json.Slot.holds_find`).
-/

namespace Rulebook

open Json

/-! ## Writing -/

/-- Whether a key is a text without surrogates. -/
def HostKey.isText : HostKey → Bool
  | text _ => true
  | _ => false

namespace HostValue

/-- The values of the types that JSON has as well: finite numbers, and texts as keys. -/
inductive IsPlain : HostValue → Prop where
  | none : IsPlain .none
  | bool (b : Bool) : IsPlain (.bool b)
  | int (i : Int) : IsPlain (.int i)
  | float {x : Binary64} (hfinite : x.isFinite = true) : IsPlain (.float x)
  | text (s : String) : IsPlain (.text s)
  | list {items : List HostValue} (hitems : ∀ value ∈ items, IsPlain value) :
      IsPlain (.list items)
  | dict {entries : HostDict} (hkeys : ∀ e ∈ entries, e.1.isText = true)
      (hvalues : ∀ e ∈ entries, IsPlain e.2) : IsPlain (.dict entries)

/-- The ways to write a value as JSON.  A floating-point number is the one nearest to a numeral
with digits after the point or a power of ten. -/
inductive Renders : HostValue → Document → Prop where
  | none : Renders .none .null
  | bool (b : Bool) : Renders (.bool b) (.bool b)
  | int (i : Int) : Renders (.int i) (.number (.ofInt i))
  | float {x : Binary64} {n : Numeral} (hjson : n.IsJson) (hfloat : n.IsFloat)
      (hnearest : n.nearest = x) (hfinite : x.isFinite = true) : Renders (.float x) (.number n)
  | text {units : List TextUnit} {s : String} (h : textOf? units = some s) :
      Renders (.text s) (.string units)
  | list {items : List HostValue} {docs : List Document} (h : List.Forall₂ Renders items docs) :
      Renders (.list items) (.array docs)
  | dict {entries : HostDict} {named others : List (String × Document)} {members : List Member}
      (h : List.Forall₂ (HostDict.Named Renders) entries named) (hothers : others.Perm named)
      (hmembers : Document.textMembers? members = some others) :
      Renders (.dict entries) (.object members)

/-- Every plain value can be written. -/
theorem IsPlain.exists_renders {value : HostValue} (h : value.IsPlain) :
    ∃ d : Document, (∀ t ∈ d.tokens, t.IsWritable) ∧ value.Renders d := by
  induction h with
  | none => exact ⟨.null, List.forall_mem_singleton.2 trivial, .none⟩
  | bool b => exact ⟨.bool b, List.forall_mem_singleton.2 trivial, .bool b⟩
  | int i =>
      exact ⟨.number (.ofInt i), List.forall_mem_singleton.2 (Numeral.isJson_ofInt i), .int i⟩
  | @float x hfinite =>
      have hjson := x.isJson_numeral .json
      exact ⟨.number (x.numeral .json), List.forall_mem_singleton.2 hjson,
        .float hjson (x.isFloat_numeral .json) (Binary64.nearest_numeral .json hfinite) hfinite⟩
  | text s => exact ⟨.string (unitsOf s), Document.isWritable_string s, .text (textOf?_unitsOf s)⟩
  | @list items _ ih =>
      obtain ⟨docs, h⟩ := exists_forall₂ ih
      obtain ⟨hwritable, h⟩ := (List.forall₂_and_left docs items).1 h.flip
      exact ⟨.array docs, Document.isWritable_array hwritable, .list h.flip⟩
  | @dict entries hkeys _ ih =>
      have hentries : ∀ e ∈ entries, ∃ m : String × Document,
          (∀ t ∈ m.2.tokens, t.IsWritable) ∧ HostDict.Named Renders e m := by
        rintro ⟨key, value⟩ he
        obtain ⟨d, hwritable, hvalue⟩ := ih (key, value) he
        cases key with
        | broken t => cases hkeys _ he
        | other => cases hkeys _ he
        | text name => exact ⟨(name, d), hwritable, .intro name hvalue⟩
      obtain ⟨named, h⟩ := exists_forall₂ hentries
      obtain ⟨hwritable, h⟩ := (List.forall₂_and_left named entries).1 h.flip
      exact ⟨.ofNamed named, Document.isWritable_ofNamed hwritable,
        .dict h.flip (.refl named) (Document.textMembers?_map named)⟩

end HostValue

/-! ## Keys -/

namespace Json.Slot

/-- A slot has what a value is written as, or is missing where there is no value. -/
inductive Holds : Slot → Option HostValue → Prop where
  | missing : Holds .missing none
  | once {d : Document} {value : HostValue} (h : value.Renders d) : Holds (.once d) (some value)

theorem Holds.of_rel {value : Option HostValue} {d : Option Document}
    (h : Option.Rel HostValue.Renders value d) : Holds (d.elim .missing .once) value := by
  cases h with
  | none => exact .missing
  | some hvalue => exact .once hvalue

variable {key name : String} {rest : List (String × Document)}

theorem find_cons_of_ne (h : name ≠ key) (d : Document) :
    find [key] ((name, d) :: rest) = find [key] rest := by
  simp [find, h]

theorem find_cons_self (h : key ∉ rest.map Prod.fst) (d : Document) :
    find [key] ((key, d) :: rest) = .once d := by
  have hrest : rest.filter (fun m => [key].contains m.1) = [] := by
    refine List.filter_eq_nil_iff.2 fun m hm hname => h ?_
    rw [← List.mem_singleton.1 (List.contains_iff_mem.1 hname)]
    exact List.mem_map_of_mem hm
  rw [find, List.filter_cons_of_pos (by simp), hrest]

theorem find_of_nodup {named : List (String × Document)} (h : (named.map Prod.fst).Nodup)
    (key : String) : find [key] named = (named.lookup key).elim .missing .once := by
  induction named with
  | nil => rfl
  | cons m rest ih =>
      obtain ⟨hname, hrest⟩ := List.nodup_cons.1 h
      by_cases hkey : m.1 = key
      · subst hkey
        rw [find_cons_self hname, List.lookup_cons_self]
        rfl
      · rw [find_cons_of_ne hkey, ih hrest, List.lookup_cons,
          beq_eq_false_iff_ne.2 (Ne.symm hkey)]

/-- What stands under a key is what the value of the key is written as. -/
theorem holds_find {entries : HostDict} {named : List (String × Document)}
    (h : List.Forall₂ (HostDict.Named HostValue.Renders) entries named)
    (hd : entries.IsDistinct) (key : String) : (find [key] named).Holds (entries.find? key) := by
  rw [find_of_nodup (hd.nodup h)]
  exact .of_rel (HostDict.rel_find h key)

end Json.Slot

end Rulebook
