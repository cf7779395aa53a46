/-
# Four stores hold one list

The stores of a catalogue are written separately.  They `Describe` a list of entries when each of
them, asked in its own way, answers as the list does.  An insertion is taken, left out or refused by
both alike, and keeps it so (`Describes.insert`): a new handle comes last among the constructors or
in the bucket of its name, and a new name last among the names.  By induction the stores that are
built for a type describe the catalogue that is built for it, and fail when it does
(`Host.stores_catalogue`); so calls select the same overload from both.
-/

import CallResolution.Catalogue.Stores
import CallResolution.Proofs.Catalogue.Content
import CallResolution.Proofs.Conversion.HostBound

namespace CallResolution
namespace Catalogue

/-! ## What a list of entries answers -/

section

variable {cat : Catalogue}

theorem mem_handlesOf {name : Option String} {h : Handle} :
    h ∈ cat.handlesOf name ↔ ∃ o, cat.find? h = some o ∧ o.name = name := by
  rw [handlesOf, List.mem_map]
  constructor
  · rintro ⟨o, ho, hh⟩
    obtain ⟨hmem, hname⟩ := List.mem_filter.1 ho
    exact ⟨o, find?_eq_some_iff.2 ⟨hmem, hh⟩, of_decide_eq_true hname⟩
  · rintro ⟨o, hfind, hname⟩
    obtain ⟨hmem, hh⟩ := find?_eq_some_iff.1 hfind
    exact ⟨o, List.mem_filter.2 ⟨hmem, decide_eq_true hname⟩, hh⟩

theorem mem_handles_of_mem_handlesOf {name : Option String} {h : Handle}
    (hh : h ∈ cat.handlesOf name) : h ∈ cat.entries.map Overload.handle :=
  (List.filter_sublist.map _).mem hh

theorem methods?_eq_some_iff {name : String} {hs : List Handle} :
    cat.methods? name = some hs ↔ hs ≠ [] ∧ cat.handlesOf (some name) = hs := by
  rw [methods?]
  split
  · next hnil =>
    rw [hnil]
    constructor
    · intro h
      cases h
    · rintro ⟨hne, h⟩
      exact absurd h.symm hne
  · next hs' hne =>
    constructor
    · intro h
      obtain rfl := Option.some.inj h
      exact ⟨hne, rfl⟩
    · rintro ⟨-, h⟩
      rw [h]

theorem methods?_eq_none_iff {name : String} :
    cat.methods? name = none ↔ cat.handlesOf (some name) = [] := by
  rw [methods?]
  split <;> simp_all

theorem methods?_getD (name : String) :
    (cat.methods? name).getD [] = cat.handlesOf (some name) := by
  cases h : cat.methods? name with
  | none => exact (methods?_eq_none_iff.1 h).symm
  | some hs => exact (methods?_eq_some_iff.1 h).2.symm

theorem mem_methodNames {name : String} :
    name ∈ cat.methodNames ↔ ∃ hs, cat.methods? name = some hs := by
  rw [methodNames, mem_distinctOn_id, List.mem_filterMap]
  constructor
  · rintro ⟨o, ho, hname⟩
    have hh : o.handle ∈ cat.handlesOf (some name) :=
      mem_handlesOf.2 ⟨o, find?_eq_some_iff.2 ⟨ho, rfl⟩, hname⟩
    exact ⟨_, methods?_eq_some_iff.2 ⟨List.ne_nil_of_mem hh, rfl⟩⟩
  · rintro ⟨hs, h⟩
    obtain ⟨hne, rfl⟩ := methods?_eq_some_iff.1 h
    obtain ⟨h, hh⟩ := List.exists_mem_of_ne_nil _ hne
    obtain ⟨o, ho, hname⟩ := mem_handlesOf.1 hh
    exact ⟨o, (find?_eq_some_iff.1 ho).1, hname⟩

end

/-! ## One entry more -/

section

variable {cat cat' : Catalogue} {o : Overload} (h : cat'.entries = cat.entries ++ [o])

include h

theorem handlesOf_append (name : Option String) :
    cat'.handlesOf name = cat.handlesOf name ++ if o.name = name then [o.handle] else [] := by
  rw [handlesOf, h, List.filter_append, List.map_append, ← handlesOf]
  by_cases hname : o.name = name <;> simp [hname]

theorem methods?_append (name : String) : cat'.methods? name =
    if o.name = some name then some ((cat.methods? name).getD [] ++ [o.handle])
    else cat.methods? name := by
  rw [methods?_getD]
  split
  · next hname =>
    refine methods?_eq_some_iff.2 ⟨List.append_ne_nil_of_right_ne_nil _ (by simp), ?_⟩
    rw [handlesOf_append h, if_pos hname]
  · next hname =>
    rw [methods?, methods?, handlesOf_append h, if_neg hname, List.append_nil]

theorem methodNames_append : cat'.methodNames =
    cat.methodNames ++ o.name.toList.filter fun name => (cat.methods? name).isNone := by
  rw [methodNames, h, List.filterMap_append]
  cases hname : o.name with
  | none => simp [hname, methodNames]
  | some name =>
    have hold : name ∈ cat.entries.filterMap (·.name) ↔ ∃ hs, cat.methods? name = some hs := by
      rw [← mem_methodNames, methodNames, mem_distinctOn_id]
    rw [List.filterMap_cons_some hname, List.filterMap_nil, distinctOn_id_append_singleton,
      ← methodNames, Option.toList_some, List.filter_singleton]
    cases hbucket : cat.methods? name <;> simp [hold, hbucket]

theorem find?_append (hfree : cat.find? o.handle = none) (k : Handle) :
    cat'.find? k = if o.handle = k then some o else cat.find? k := by
  rw [find?, h, List.find?_append, ← find?]
  by_cases hk : o.handle = k
  · rw [if_pos hk, ← hk, hfree]
    simp
  · rw [if_neg hk]
    simp [hk]

end

namespace Stores

/-! ## The lists of handles -/

variable {s : Stores} {cat : Catalogue}

theorem enlist_frame (s : Stores) (h : Handle) (name : Option String) :
    (s.enlist h name).target = s.target ∧ (s.enlist h name).targetName = s.targetName ∧
      (s.enlist h name).callables = s.callables := by
  cases name with
  | none => exact ⟨rfl, rfl, rfl⟩
  | some name =>
    rw [enlist]
    split <;> exact ⟨rfl, rfl, rfl⟩

theorem enlist_constructors (s : Stores) (h : Handle) (name : Option String) :
    (s.enlist h name).constructors = s.constructors ++ if name = none then [h] else [] := by
  cases name with
  | none => rfl
  | some name =>
    rw [enlist, if_neg nofun, List.append_nil]
    split <;> rfl

/-- The handle comes last in the bucket of its name, and other buckets stay as they are. -/
theorem enlist_methods? (s : Stores) (h : Handle) (name : Option String) (n : String) :
    (s.enlist h name).methods? n =
      if name = some n then some ((s.methods? n).getD [] ++ [h]) else s.methods? n := by
  cases name with
  | none => rfl
  | some name =>
    rw [enlist]
    split
    all_goals
      next hbucket =>
        simp only [methods?, Std.TreeMap.getElem?_insert, Std.LawfulEqCmp.compare_eq_iff_eq,
          Option.some.injEq]
        split
        · next heq => rw [← heq, hbucket]; rfl
        · rfl

theorem enlist_methodNames (s : Stores) (h : Handle) (name : Option String) :
    (s.enlist h name).methodNames =
      s.methodNames ++ name.toList.filter fun n => (s.methods? n).isNone := by
  cases name with
  | none => exact (List.append_nil _).symm
  | some name =>
    rw [enlist, Option.toList_some, List.filter_singleton, methods?]
    split
    · next hbucket => simp [hbucket]
    · next hbucket => simp [hbucket]

/-! ## Stores and list side by side -/

/-- Each store answers as the list of entries does. -/
structure Describes (s : Stores) (cat : Catalogue) : Prop where
  target : s.target = cat.target
  targetName : s.targetName = cat.targetName
  constructors : s.constructors = cat.constructors
  methods? (name : String) : s.methods? name = cat.methods? name
  methodNames : s.methodNames = cat.methodNames
  find? (h : Handle) : s.find? h = cat.find? h
  size : s.size = cat.size

theorem describes_empty (t : TypeId) (name : String) :
    (empty t name).Describes (.empty t name) where
  target := rfl
  targetName := rfl
  constructors := rfl
  methods? _ := Std.TreeMap.getElem?_emptyc
  methodNames := rfl
  find? _ := Std.TreeMap.getElem?_emptyc
  size := rfl

/-- Under a new handle the overload is written to all stores that it belongs to. -/
theorem Describes.write (d : s.Describes cat) {o : Overload} (hfree : cat.find? o.handle = none)
    {cat' : Catalogue} (htarget : cat'.target = cat.target)
    (hname : cat'.targetName = cat.targetName) (hentries : cat'.entries = cat.entries ++ [o]) :
    let listed := s.enlist o.handle o.name
    Describes { listed with callables := listed.callables.insert o.handle o } cat' := by
  obtain ⟨htarget', hname', hcallables⟩ := enlist_frame s o.handle o.name
  exact {
    target := htarget'.trans (d.target.trans htarget.symm)
    targetName := hname'.trans (d.targetName.trans hname.symm)
    constructors := by
      rw [enlist_constructors, d.constructors, Catalogue.constructors, Catalogue.constructors,
        handlesOf_append hentries]
    methods? name := by
      rw [methods?_append hentries, ← d.methods?]
      exact enlist_methods? s o.handle o.name name
    methodNames := by
      rw [enlist_methodNames, d.methodNames, methodNames_append hentries]
      simp only [d.methods?]
    find? h := by
      rw [find?_append hentries hfree, ← d.find?, Stores.find?, hcallables,
        Std.TreeMap.getElem?_insert]
      simp only [Std.LawfulEqCmp.compare_eq_iff_eq]
      rfl
    size := by
      have hnew : s.callables.contains o.handle = false := by
        rw [Std.TreeMap.contains_eq_isSome_getElem?, ← Stores.find?, d.find?, hfree]
        rfl
      have hsize := d.size
      rw [Stores.size, Catalogue.size] at hsize
      simp [Stores.size, hcallables, Catalogue.size, Std.TreeMap.size_insert, hnew, hsize,
        hentries] }

/-- Both fail alike, or what the stores have become describes what the list has become. -/
inductive SameOutcome : Except CallError Stores → Except CallError Catalogue → Prop
  | error (e : CallError) : SameOutcome (.error e) (.error e)
  | ok {s : Stores} {cat : Catalogue} (d : s.Describes cat) : SameOutcome (.ok s) (.ok cat)

theorem SameOutcome.eq_error_iff {built : Except CallError Stores}
    {built' : Except CallError Catalogue} (h : SameOutcome built built') {e : CallError} :
    built = .error e ↔ built' = .error e := by
  cases h with
  | error e' => rw [Except.error.injEq, Except.error.injEq]
  | ok d => exact iff_of_false nofun nofun

theorem SameOutcome.exists_of_ok {built' : Except CallError Catalogue}
    (h : SameOutcome (.ok s) built') : ∃ cat, built' = .ok cat ∧ s.Describes cat := by
  cases h with
  | ok d => exact ⟨_, rfl, d⟩

/-- **One insertion.**  A handle that is taken is met in both, and by the same overload. -/
theorem Describes.insert (d : s.Describes cat) (o : Overload) :
    SameOutcome (s.insert o) (cat.insert o) := by
  rw [Stores.insert, ← Stores.find?, d.find?]
  cases hfind : cat.find? o.handle with
  | some first =>
    have hhandle := (find?_eq_some_iff.1 hfind).2
    have hsame : (first.name = o.name ∧ first.params = o.params ∧ first.declaring = o.declaring) ↔
        first = o := by
      rw [Overload.mk.injEq]
      tauto
    rw [insert_of_find?_eq_some hfind, d.targetName]
    simp only [hsame]
    split
    · exact .ok d
    · exact .error _
  | none =>
    obtain ⟨cat', hins, htarget, hname, hentries⟩ := exists_insert_of_find?_eq_none hfind
    rw [hins]
    exact .ok (d.write hfind htarget hname hentries)

/-- **A run of insertions.** -/
theorem Describes.foldlM (d : s.Describes cat) (os : List Overload) :
    SameOutcome (os.foldlM Stores.insert s) (os.foldlM Catalogue.insert cat) := by
  induction os generalizing s cat with
  | nil => exact .ok d
  | cons o os ih =>
    rw [List.foldlM_cons, List.foldlM_cons]
    have hstep := d.insert o
    generalize s.insert o = outcome, cat.insert o = outcome' at hstep
    cases hstep with
    | error e => exact .error e
    | ok d' => exact ih d'

theorem Describes.isEmpty (d : s.Describes cat) : s.isEmpty = cat.isEmpty := by
  have hsize := d.size
  rw [Stores.size, Catalogue.size] at hsize
  rw [Stores.isEmpty, Catalogue.isEmpty, Std.TreeMap.isEmpty_eq_size_eq_zero, hsize]
  cases cat.entries <;> rfl

theorem Describes.lookup (d : s.Describes cat) : s.lookup = cat.lookup := by
  funext h
  cases hfind : cat.find? h <;>
    simp only [Stores.lookup, Catalogue.lookup, d.find?, hfind, d.targetName]

end Stores
end Catalogue

namespace Host

open Catalogue (Stores)

/-- **The stores built for a type hold its catalogue**, and are not built when it is not. -/
theorem stores_catalogue (h : Host) (settings : Settings) (t : TypeId) :
    Stores.SameOutcome (h.stores settings t) (h.catalogue settings t) := by
  rw [stores, catalogue]
  cases h.targetDecl t with
  | error e => exact .error e
  | ok d => exact (Stores.describes_empty t d.name).foldlM _

end Host

namespace Registry

variable {s : Catalogue.Stores} {cat : Catalogue}

/-- **Calls find in the stores what they find in the list.** -/
theorem host_selectConstructor (r : Registry) (rules : Rules) (d : s.Describes cat)
    (args : List Arg) :
    r.host.selectConstructor rules s args = r.selectConstructor rules cat args := by
  rw [Host.selectConstructor, selectConstructor, select, host_acceptsAll, d.lookup, d.targetName,
    d.constructors]

theorem host_selectMethod (r : Registry) (rules : Rules) (d : s.Describes cat) (name : String)
    (args : List Arg) :
    r.host.selectMethod rules s name args = r.selectMethod rules cat name args := by
  rw [Host.selectMethod, selectMethod, host_acceptsAll, d.lookup, d.targetName, d.methods?]

end Registry
end CallResolution
