/-
# Catalogues are coherent

Building a catalogue can fail in one way only: two of the members to be catalogued have the same
handle and are not the same (`exists_foldlM_insert_iff`), which is an internal error
(`isInternal_of_foldlM`).  The stores that have been built describe one list of entries, and so they
are `Coherent`: the list of constructors, the buckets, the names and the index agree on every
handle (`Describes.coherent`).  A handle taken from a list is therefore always found, and no call
ends in an internal error (`Selection.error_of_select`).
-/

import CallResolution.Proofs.Catalogue.Stores
import CallResolution.Proofs.Registry.Reachable
import Mathlib.Data.List.Nodup

namespace CallResolution
namespace Catalogue

/-! ## When building fails -/

/-- No two different overloads have the same handle. -/
def HandlesDistinct (os : List Overload) : Prop :=
  ∀ o ∈ os, ∀ o' ∈ os, o.handle = o'.handle → o = o'

theorem handlesDistinct_append_singleton {os : List Overload} {o : Overload} :
    HandlesDistinct (os ++ [o]) ↔
      HandlesDistinct os ∧ ∀ first ∈ os, first.handle = o.handle → first = o := by
  constructor
  · intro h
    refine ⟨fun a ha b hb => ?_, fun a ha => ?_⟩
    · exact h a (List.mem_append_left _ ha) b (List.mem_append_left _ hb)
    · exact h a (List.mem_append_left _ ha) o (List.mem_append_right _ (List.mem_singleton_self o))
  · rintro ⟨hos, ho⟩ a ha b hb hab
    rcases List.mem_append.1 ha with ha' | ha' <;> rcases List.mem_append.1 hb with hb' | hb'
    · exact hos a ha' b hb' hab
    · obtain rfl := List.mem_singleton.1 hb'
      exact ho a ha' hab
    · obtain rfl := List.mem_singleton.1 ha'
      exact (ho b hb' hab.symm).symm
    · rw [List.mem_singleton.1 ha', List.mem_singleton.1 hb']

/-- Members are kept apart by name, parameters and owner. -/
theorem not_handlesDistinct_iff {ms : List Member} :
    ¬HandlesDistinct (ms.map Overload.ofMember) ↔ ∃ m ∈ ms, ∃ n ∈ ms,
      m.handle = n.handle ∧ (m.name ≠ n.name ∨ m.params ≠ n.params ∨ m.owner ≠ n.owner) := by
  have heq : ∀ m n : Member, m.handle = n.handle → (Overload.ofMember m = .ofMember n ↔
      m.name = n.name ∧ m.params = n.params ∧ m.owner = n.owner) := fun m n h => by
    simp [Overload.ofMember, h]
  constructor
  · intro h
    by_contra hnone
    refine h (List.forall_mem_map.2 fun m hm => List.forall_mem_map.2 fun n hn hmn => ?_)
    by_contra hne
    rw [heq m n hmn] at hne
    exact hnone ⟨m, hm, n, hn, hmn, by tauto⟩
  · rintro ⟨m, hm, n, hn, hmn, hdiffer⟩ h
    have hsame := h _ (List.mem_map_of_mem hm) _ (List.mem_map_of_mem hn) hmn
    rw [heq m n hmn] at hsame
    tauto

/-- An entry is taken unless a different one has its handle. -/
theorem exists_insert_iff {cat : Catalogue} {o : Overload} :
    (∃ cat', cat.insert o = .ok cat') ↔
      ∀ first ∈ cat.entries, first.handle = o.handle → first = o := by
  cases hfind : cat.find? o.handle with
  | some first =>
    have honly : ∀ e ∈ cat.entries, e.handle = o.handle → first = e := fun e he heo =>
      Option.some.inj (hfind.symm.trans (find?_eq_some_iff.2 ⟨he, heo⟩))
    obtain ⟨hmem, hhandle⟩ := find?_eq_some_iff.1 hfind
    rw [insert_of_find?_eq_some hfind]
    split
    · next heq => exact ⟨fun _ e he heo => honly e he heo ▸ heq, fun _ => ⟨cat, rfl⟩⟩
    · next hne => exact ⟨nofun, fun h => absurd (h first hmem hhandle) hne⟩
  | none =>
    obtain ⟨cat', hins, -⟩ := exists_insert_of_find?_eq_none hfind
    refine ⟨fun _ e he heo => ?_, fun _ => ⟨cat', hins⟩⟩
    exact absurd (heo ▸ List.mem_map_of_mem he) (find?_eq_none_iff.1 hfind)

theorem isInternal_of_insert {cat : Catalogue} {o : Overload} {e : CallError}
    (h : cat.insert o = .error e) : e.isInternal := by
  cases hfind : cat.find? o.handle with
  | some first =>
    rw [insert_of_find?_eq_some hfind] at h
    split at h
    · cases h
    · rw [← Except.error.inj h]
      rfl
  | none =>
    obtain ⟨cat', hins, -⟩ := exists_insert_of_find?_eq_none hfind
    cases hins.symm.trans h

/-- Whatever goes wrong is internal. -/
theorem isInternal_of_foldlM {os : List Overload} {cat : Catalogue} {e : CallError}
    (h : os.foldlM insert cat = .error e) : e.isInternal := by
  induction os generalizing cat with
  | nil => cases h
  | cons o os ih =>
    rw [List.foldlM_cons] at h
    cases hins : cat.insert o with
    | error e' =>
      rw [hins] at h
      rw [← Except.error.inj h]
      exact isInternal_of_insert hins
    | ok mid =>
      rw [hins] at h
      exact ih h

/-- **Building succeeds when no two different overloads have the same handle**, and only then. -/
theorem exists_foldlM_insert_iff {t : TypeId} {name : String} {os : List Overload} :
    (∃ cat, os.foldlM insert (empty t name) = .ok cat) ↔ HandlesDistinct os := by
  induction os using List.reverseRecOn with
  | nil => exact ⟨fun _ o ho => absurd ho List.not_mem_nil, fun _ => ⟨_, rfl⟩⟩
  | append_singleton os o ih =>
    rw [handlesDistinct_append_singleton, ← ih, List.foldlM_append]
    cases hos : os.foldlM insert (empty t name) with
    | error e =>
      constructor
      · rintro ⟨cat, hcat⟩
        cases hcat
      · rintro ⟨⟨cat, hcat⟩, -⟩
        cases hcat
    | ok mid =>
      have hmid : ∀ first, first ∈ mid.entries ↔ first ∈ os := fun first => by
        rw [entries_of_foldlM hos, mem_distinctOn_id]
      have hlast : [o].foldlM insert mid = mid.insert o := by
        simp only [List.foldlM_cons, List.foldlM_nil, bind_pure]
      show (∃ cat, [o].foldlM insert mid = .ok cat) ↔ _
      rw [hlast, exists_insert_iff]
      simp only [hmid]
      exact ⟨fun h => ⟨⟨mid, rfl⟩, h⟩, And.right⟩

/-! ## What the stores list -/

theorem nodup_handlesOf {cat : Catalogue} (name : Option String) : (cat.handlesOf name).Nodup :=
  cat.handles_nodup.sublist (List.filter_sublist.map _)

/-- Lists of different names have no handle in common, as each handle has one name. -/
theorem disjoint_handlesOf {cat : Catalogue} {name name' : Option String} (hne : name ≠ name') :
    (cat.handlesOf name).Disjoint (cat.handlesOf name') := by
  intro h hh hh'
  obtain ⟨o, ho, hname⟩ := mem_handlesOf.1 hh
  obtain ⟨o', ho', hname'⟩ := mem_handlesOf.1 hh'
  obtain rfl := Option.some.inj (ho.symm.trans ho')
  exact hne (hname.symm.trans hname')

theorem nodup_methodNames {cat : Catalogue} : cat.methodNames.Nodup := by
  have h := nodup_map_distinctOn id (cat.entries.filterMap (·.name))
  rwa [List.map_id] at h

namespace Stores

variable {s : Stores} {cat : Catalogue}

namespace Describes

theorem bucket_eq (d : s.Describes cat) (name : String) :
    s.bucket name = cat.handlesOf (some name) := by
  rw [bucket, d.methods?, methods?_getD]

theorem listed_eq (d : s.Describes cat) : s.listed =
    cat.handlesOf none ++ cat.methodNames.flatMap fun name => cat.handlesOf (some name) := by
  rw [listed, d.constructors, d.methodNames, funext d.bucket_eq, Catalogue.constructors]

theorem mem_listed (d : s.Describes cat) {h : Handle} :
    h ∈ s.listed ↔ ∃ o, s.find? h = some o := by
  rw [d.listed_eq, d.find?, List.mem_append, List.mem_flatMap, mem_handlesOf]
  simp only [mem_handlesOf]
  constructor
  · rintro (⟨o, ho, -⟩ | ⟨name, -, o, ho, -⟩) <;> exact ⟨o, ho⟩
  · rintro ⟨o, ho⟩
    cases hname : o.name with
    | none => exact .inl ⟨o, ho, hname⟩
    | some name =>
      have hh : h ∈ cat.handlesOf (some name) := mem_handlesOf.2 ⟨o, ho, hname⟩
      have hmem : name ∈ cat.methodNames :=
        mem_methodNames.2 ⟨_, methods?_eq_some_iff.2 ⟨List.ne_nil_of_mem hh, rfl⟩⟩
      exact .inr ⟨name, hmem, o, ho, hname⟩

theorem nodup_listed (d : s.Describes cat) : s.listed.Nodup := by
  rw [d.listed_eq, List.nodup_append']
  refine ⟨nodup_handlesOf none, List.nodup_flatMap.2 ⟨fun name _ => nodup_handlesOf _, ?_⟩, ?_⟩
  · exact nodup_methodNames.imp fun hne => disjoint_handlesOf fun h => hne (Option.some.inj h)
  · intro h hh hh'
    obtain ⟨name, -, hname⟩ := List.mem_flatMap.1 hh'
    exact disjoint_handlesOf (Option.some_ne_none name).symm hh hname

theorem length_listed (d : s.Describes cat) : s.listed.length = s.size := by
  have hperm : s.listed.Perm (cat.entries.map Overload.handle) := by
    refine (List.perm_ext_iff_of_nodup d.nodup_listed cat.handles_nodup).2 fun h => ?_
    rw [d.mem_listed, d.find?, ← not_iff_not, ← find?_eq_none_iff, ← Option.ne_none_iff_exists',
      not_not]
  rw [hperm.length_eq, List.length_map, d.size, Catalogue.size]

end Describes

/-- The constructors, the buckets, the names and the index of a catalogue agree. -/
structure Coherent (s : Stores) : Prop where
  /-- What is listed as a constructor is found under its handle and has no name. -/
  constructors (h : Handle) : h ∈ s.constructors →
    ∃ o, s.find? h = some o ∧ o.handle = h ∧ o.name = none
  /-- What is listed under a name is found under its handle and has this name. -/
  methods? (name : String) (hs : List Handle) : s.methods? name = some hs →
    hs ≠ [] ∧ ∀ h ∈ hs, ∃ o, s.find? h = some o ∧ o.handle = h ∧ o.name = some name
  /-- Each name that has a bucket is listed once. -/
  methodNames : s.methodNames.Nodup ∧
    ∀ name, name ∈ s.methodNames ↔ ∃ hs, s.methods? name = some hs
  /-- Each handle that is found is listed once among the constructors and all buckets. -/
  count_listed (h : Handle) : s.listed.count h = if (s.find? h).isSome then 1 else 0
  size : s.size = s.listed.length

/-- **Stores that describe a list agree with each other.** -/
theorem Describes.coherent (d : s.Describes cat) : s.Coherent where
  constructors h hh := by
    rw [d.constructors] at hh
    obtain ⟨o, ho, hname⟩ := mem_handlesOf.1 hh
    exact ⟨o, (d.find? h).trans ho, (find?_eq_some_iff.1 ho).2, hname⟩
  methods? name hs hhs := by
    rw [d.methods?] at hhs
    obtain ⟨hne, rfl⟩ := methods?_eq_some_iff.1 hhs
    refine ⟨hne, fun h hh => ?_⟩
    obtain ⟨o, ho, hname⟩ := mem_handlesOf.1 hh
    exact ⟨o, (d.find? h).trans ho, (find?_eq_some_iff.1 ho).2, hname⟩
  methodNames := by
    rw [d.methodNames]
    refine ⟨nodup_methodNames, fun name => ?_⟩
    rw [d.methods?, mem_methodNames]
  count_listed h := by
    split
    · next hfound =>
      exact List.count_eq_one_of_mem d.nodup_listed
        (d.mem_listed.2 (Option.isSome_iff_exists.1 hfound))
    · next hmissing =>
      exact List.count_eq_zero_of_not_mem fun hh =>
        hmissing (Option.isSome_iff_exists.2 (d.mem_listed.1 hh))
  size := d.length_listed.symm

theorem exists_lookup {h : Handle} {p : Overload → Prop} (hh : ∃ o, s.find? h = some o ∧ p o) :
    ∃ o, s.lookup h = .ok o := by
  obtain ⟨o, ho, -⟩ := hh
  exact ⟨o, by rw [lookup, ho]⟩

end Stores
end Catalogue

/-! ## Calls on a catalogue -/

namespace Selection

variable {accepts : Acceptance} {lookup : Handle → Except CallError Overload} {call : Call}
  {e : CallError}

theorem error_of_choose {os : List Overload} (h : choose accepts call os = .error e) :
    e = .notFound call .noApplicable ∨ ∃ tied, e = .ambiguous call tied := by
  match os with
  | [] => exact .inl (Except.error.inj h).symm
  | [o] => cases h
  | o :: o' :: os =>
    rw [choose] at h
    · split at h
      · cases h
      · exact .inr ⟨_, (Except.error.inj h).symm⟩
    · simp
    · simp

/-- The scan of a bucket goes through if every handle leads to an overload. -/
theorem exists_candidates {args : List Arg} {bucket : List Handle}
    (hb : ∀ h ∈ bucket, ∃ o, lookup h = .ok o) :
    ∃ found, candidates accepts lookup args bucket = .ok found := by
  induction bucket with
  | nil => exact ⟨_, rfl⟩
  | cons h hs ih =>
    obtain ⟨o, ho⟩ := hb h List.mem_cons_self
    obtain ⟨found, hfound⟩ := ih fun h' hh' => hb h' (List.mem_cons_of_mem h hh')
    rw [candidates, ho, hfound]
    simp only
    split
    · exact ⟨_, rfl⟩
    · cases found <;> exact ⟨_, rfl⟩

/-- What a call on a bucket can fail with whose handles all lead to overloads. -/
theorem error_of_select {bucket : List Handle} (hb : ∀ h ∈ bucket, ∃ o, lookup h = .ok o)
    (h : select accepts lookup call bucket = .error e) :
    (e = .notFound call .noCandidates ∧ bucket = []) ∨ e = .notFound call .noApplicable ∨
      ∃ tied, e = .ambiguous call tied := by
  rw [select] at h
  split at h
  · next hnil => exact .inl ⟨(Except.error.inj h).symm, List.isEmpty_iff.1 hnil⟩
  · obtain ⟨found, hfound⟩ : ∃ found, candidates accepts lookup call.args bucket = .ok found :=
      exists_candidates hb
    rw [hfound] at h
    cases found with
    | exact o => cases h
    | applicable os => exact .inr (error_of_choose h)

end Selection

namespace Host

open Catalogue (Stores)

variable {h : Host} {rules : Rules} {s : Stores} {args : List Arg} {e : CallError}

/-- No choice of a constructor fails for reasons internal to the catalogue. -/
theorem isInternal_of_selectConstructor (hs : s.Coherent)
    (he : h.selectConstructor rules s args = .error e) : e.isInternal = false := by
  have hb : ∀ k ∈ s.constructors, ∃ o, s.lookup k = .ok o := fun k hk =>
    Stores.exists_lookup (hs.constructors k hk)
  rcases Selection.error_of_select hb he with ⟨rfl, -⟩ | rfl | ⟨tied, rfl⟩ <;> rfl

/-- Nor does a choice of a method, and a method that has a bucket has candidates. -/
theorem isInternal_of_selectMethod (hs : s.Coherent) {name : String}
    (he : h.selectMethod rules s name args = .error e) :
    e.isInternal = false ∧ ∀ call, e ≠ .notFound call .noCandidates := by
  rw [selectMethod] at he
  cases hbucket : s.methods? name with
  | none =>
    rw [hbucket] at he
    rw [← Except.error.inj he]
    exact ⟨rfl, fun call => by simp⟩
  | some bucket =>
    rw [hbucket] at he
    obtain ⟨hne, hfound⟩ := hs.methods? name bucket hbucket
    have hb : ∀ k ∈ bucket, ∃ o, s.lookup k = .ok o := fun k hk =>
      Stores.exists_lookup (hfound k hk)
    rcases Selection.error_of_select hb he with ⟨rfl, hnil⟩ | rfl | ⟨tied, rfl⟩
    · exact absurd hnil hne
    · exact ⟨rfl, fun call => by simp⟩
    · exact ⟨rfl, fun call => by simp⟩

/-! ## Building a catalogue -/

/-- A type that can have a catalogue has one unless two different members share a handle. -/
theorem isInternal_catalogue_iff {settings : Settings} {t : TypeId} {d : TypeDecl}
    (hd : h.targetDecl t = .ok d) :
    (∃ e, h.catalogue settings t = .error e ∧ e.isInternal) ↔
      ¬Catalogue.HandlesDistinct ((h.callableMembers settings t).map Overload.ofMember) := by
  rw [← @Catalogue.exists_foldlM_insert_iff t d.name, catalogue_of_targetDecl hd]
  cases h : ((h.callableMembers settings t).map Overload.ofMember).foldlM Catalogue.insert
      (.empty t d.name) with
  | error e => simpa using Catalogue.isInternal_of_foldlM h
  | ok cat => simp

theorem exists_describes {settings : Settings} {t : TypeId} (hs : h.stores settings t = .ok s) :
    ∃ cat, h.catalogue settings t = .ok cat ∧ s.Describes cat :=
  (hs ▸ h.stores_catalogue settings t).exists_of_ok

/-- What the stores index is what was to be catalogued. -/
theorem find?_stores_iff {settings : Settings} {t : TypeId} (hs : h.stores settings t = .ok s)
    {k : Handle} {o : Overload} : s.find? k = some o ↔
      o.handle = k ∧ ∃ m ∈ h.callableMembers settings t, Overload.ofMember m = o := by
  obtain ⟨cat, hcat, d⟩ := exists_describes hs
  rw [d.find?, Catalogue.find?_eq_some_iff, entries_of_catalogue hcat, mem_distinctOn_id,
    List.mem_map, and_comm]

/-- **A catalogue that can be built is coherent, and calls on it fail only for their own sake.**
Whatever the host, building a catalogue of a type that can have one ends in an internal error just
when two of the members to be catalogued share a handle and differ in name, parameters or owner.
If it is built, its stores are coherent and index just these members, and no choice among its
constructors or methods, whatever host is asked then and under any rules, fails with an internal
error; where a method has the name there are candidates. -/
theorem stores_coherent (h : Host) (settings : Settings) {t : TypeId} {d : TypeDecl}
    (hd : h.targetDecl t = .ok d) :
    ((∃ e, h.stores settings t = .error e ∧ e.isInternal) ↔
      ∃ m ∈ h.callableMembers settings t, ∃ n ∈ h.callableMembers settings t,
        m.handle = n.handle ∧ (m.name ≠ n.name ∨ m.params ≠ n.params ∨ m.owner ≠ n.owner)) ∧
      ∀ s, h.stores settings t = .ok s → s.Coherent ∧
        (∀ k o, s.find? k = some o ↔
          o.handle = k ∧ ∃ m ∈ h.callableMembers settings t, .ofMember m = o) ∧
        ∀ (host : Host) (rules : Rules) (args : List Arg),
          (∀ e, host.selectConstructor rules s args = .error e → e.isInternal = false) ∧
          ∀ name e, host.selectMethod rules s name args = .error e →
            e.isInternal = false ∧ ∀ call, e ≠ .notFound call .noCandidates := by
  constructor
  · simp only [(h.stores_catalogue settings t).eq_error_iff]
    rw [isInternal_catalogue_iff hd, Catalogue.not_handlesDistinct_iff]
  · intro s hs
    obtain ⟨cat, -, hdescribes⟩ := exists_describes hs
    have hcoherent := hdescribes.coherent
    exact ⟨hcoherent, fun k o => find?_stores_iff hs, fun host rules args =>
      ⟨fun e => isInternal_of_selectConstructor hcoherent,
        fun name e => isInternal_of_selectMethod hcoherent⟩⟩

end Host

namespace Registry

/-- The class "Clash" with two methods that have one handle between them. -/
def clash : Registry :=
  let owner := TypeId.ofName "Clash"
  let sit := Member.method owner "sit" []
  (primitives.applyAll [.decl (.ofClass { ClassDecl.named "Clash" with
    methods := [sit, { Member.method owner "roll" [] with handle := sit.handle }] })]).2

/-- A host that lists each method of the sample twice. -/
def echo : Host := { sample.host with methods := fun t => sample.methods t ++ sample.methods t }

/-- The catalogue of cats is built, each of its members once although the host lists the methods
twice, and no call on it is an internal error; that of "Clash" is not built. -/
theorem stores_coherent_echo :
    (∃ s, echo.stores default (.ofName "Cat") = .ok s ∧ s.Coherent ∧ s.listed.length = 5 ∧
      (echo.callableMembers default (.ofName "Cat")).length = 8 ∧
      ∀ args e, sample.host.selectMethod .widen s "meet" args = .error e →
        e.isInternal = false ∧ ∀ call, e ≠ .notFound call .noCandidates) ∧
      ∃ e, clash.host.stores default (.ofName "Clash") = .error e ∧ e.isInternal := by
  constructor
  · obtain ⟨d, hd⟩ := exists_eq_ok (x := echo.targetDecl (.ofName "Cat")) (by decide +kernel)
    obtain ⟨s, hs⟩ :=
      exists_eq_ok (x := echo.stores default (.ofName "Cat")) (by decide +kernel)
    obtain ⟨hcoherent, -, hcalls⟩ := (Host.stores_coherent echo default hd).2 s hs
    have hsize : ((echo.stores default (.ofName "Cat")).toOption.map (·.size)) = some 5 := by
      decide +kernel
    rw [hs] at hsize
    refine ⟨s, hs, hcoherent, hcoherent.size ▸ Option.some.inj hsize, by decide +kernel,
      fun args => (hcalls sample.host .widen args).2 "meet"⟩
  · obtain ⟨d, hd⟩ := exists_eq_ok (x := clash.host.targetDecl (.ofName "Clash"))
      (by decide +kernel)
    exact (Host.stores_coherent clash.host default hd).1.2 (by decide +kernel)

end Registry
end CallResolution
