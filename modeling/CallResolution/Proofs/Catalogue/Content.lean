/-
# What a catalogue holds

A catalogue that could be built holds the overloads it was built from without
repetitions, in their order (`entries_of_foldlM`).  Without redirection these are the
public constructors of the type and those public methods along its lineage that no
earlier declaration hides, private ones included (`publicMethods_eq`), and no two of
them have the same signature.  `Catalogue.Lists` says for every way to ask a catalogue
what it answers then.
-/

import CallResolution.Catalogue.Build
import CallResolution.Proofs.Distinct
import CallResolution.Proofs.Registry.Members

namespace CallResolution
namespace Catalogue

/-! ## Built from overloads -/

theorem insert_of_find?_eq_some {cat : Catalogue} {o first : Overload}
    (h : cat.find? o.handle = some first) : cat.insert o =
      if first = o then .ok cat
      else .error (.sharedHandle o.handle cat.targetName first.label o.label) := by
  rw [insert]
  split
  · next first' hfirst =>
    obtain rfl := Option.some.inj (hfirst.symm.trans h)
    rfl
  · next hnone => cases hnone.symm.trans h

theorem exists_insert_of_find?_eq_none {cat : Catalogue} {o : Overload}
    (h : cat.find? o.handle = none) : ∃ cat', cat.insert o = .ok cat' ∧
      cat'.target = cat.target ∧ cat'.targetName = cat.targetName ∧
      cat'.entries = cat.entries ++ [o] := by
  rw [insert]
  split
  · next first hfirst => cases hfirst.symm.trans h
  · exact ⟨_, rfl, rfl, rfl, rfl⟩

theorem entries_of_insert {cat cat' : Catalogue} {o : Overload} (h : cat.insert o = .ok cat') :
    cat'.entries = cat.entries ++ if o ∈ cat.entries then [] else [o] := by
  cases hfind : cat.find? o.handle with
  | some first =>
    rw [insert_of_find?_eq_some hfind] at h
    split at h
    · next heq =>
      subst heq
      have ho : first ∈ cat.entries := List.mem_of_find?_eq_some hfind
      rw [if_pos ho, List.append_nil, Except.ok.inj h]
    · cases h
  | none =>
    have ho : o ∉ cat.entries := fun ho => find?_eq_none_iff.1 hfind (List.mem_map_of_mem ho)
    obtain ⟨cat'', hins, -, -, hentries⟩ := exists_insert_of_find?_eq_none hfind
    rw [if_neg ho, ← Except.ok.inj (hins.symm.trans h), hentries]

theorem entries_of_foldlM {t : TypeId} {name : String} {os : List Overload} {cat : Catalogue}
    (h : os.foldlM insert (empty t name) = .ok cat) : cat.entries = distinctOn id os := by
  induction os using List.reverseRecOn generalizing cat with
  | nil => rw [← Except.ok.inj h]; rfl
  | append_singleton os o ih =>
    rw [List.foldlM_append] at h
    cases hos : os.foldlM insert (empty t name) with
    | error e => rw [hos] at h; cases h
    | ok mid =>
      rw [hos] at h
      have hins : [o].foldlM insert mid = .ok cat := h
      simp only [List.foldlM_cons, List.foldlM_nil, bind_pure] at hins
      rw [entries_of_insert hins, ih hos, distinctOn_id_append_singleton]
      simp only [mem_distinctOn_id]

/-! ## Asked in every way -/

/-- The catalogue lists just the given constructors and methods, in the given order. -/
structure Lists (cat : Catalogue) (cs ms : List Member) : Prop where
  constructors : cat.constructors = cs.map Member.handle
  /-- The methods of one name, or nothing if none has it. -/
  methods? (name : String) : cat.methods? name =
    if ∃ m ∈ ms, m.name = some name then
      some ((ms.filter (·.name = some name)).map Member.handle)
    else none
  /-- The names in the order of the first methods that have them. -/
  methodNames : cat.methodNames = firsts id (ms.filterMap Member.name)
  /-- No member is listed twice. -/
  nodup : ((cs ++ ms).map Member.handle).Nodup
  /-- Under a handle is what the member of this handle is. -/
  find? (h : Handle) (o : Overload) : cat.find? h = some o ↔
    ∃ m ∈ cs ++ ms, m.handle = h ∧ o = ⟨m.name, m.params, m.handle, m.owner⟩

theorem find?_eq_some_iff {cat : Catalogue} {h : Handle} {o : Overload} :
    cat.find? h = some o ↔ o ∈ cat.entries ∧ o.handle = h := by
  constructor
  · intro ho
    exact ⟨List.mem_of_find?_eq_some ho, by simpa using List.find?_some ho⟩
  · rintro ⟨ho, rfl⟩
    cases hfind : cat.find? o.handle with
    | none => exact absurd (List.mem_map_of_mem ho) (find?_eq_none_iff.1 hfind)
    | some first =>
      have hfirst : first ∈ cat.entries := List.mem_of_find?_eq_some hfind
      have hhandle : first.handle = o.handle := by simpa using List.find?_some hfind
      rw [List.inj_on_of_nodup_map cat.handles_nodup hfirst ho hhandle]

section

variable {cat : Catalogue} {cs ms : List Member}
  (h : cat.entries = (cs ++ ms).map Overload.ofMember) (hcs : ∀ m ∈ cs, m.name = none)
  (hms : ∀ m ∈ ms, m.name ≠ none)

include h in
theorem handlesOf_eq (name : Option String) : cat.handlesOf name =
    (cs.filter (·.name = name)).map Member.handle ++
      (ms.filter (·.name = name)).map Member.handle := by
  rw [handlesOf, h, List.filter_map, List.map_map, List.filter_append, List.map_append]
  rfl

include h hcs hms in
theorem constructors_eq : cat.constructors = cs.map Member.handle := by
  have hall : cs.filter (·.name = none) = cs :=
    List.filter_eq_self.2 fun m hm => by simp [hcs m hm]
  have hnone : ms.filter (·.name = none) = [] :=
    List.filter_eq_nil_iff.2 fun m hm => by simp [hms m hm]
  rw [constructors, handlesOf_eq h, hall, hnone, List.map_nil, List.append_nil]

include h hcs in
theorem methods?_eq (name : String) : cat.methods? name =
    if ∃ m ∈ ms, m.name = some name then
      some ((ms.filter (·.name = some name)).map Member.handle)
    else none := by
  have hnone : cs.filter (·.name = some name) = [] :=
    List.filter_eq_nil_iff.2 fun m hm => by simp [hcs m hm]
  rw [methods?, handlesOf_eq h, hnone, List.map_nil, List.nil_append]
  by_cases hname : ∃ m ∈ ms, m.name = some name
  · obtain ⟨m, hm, hmname⟩ := hname
    have hmem : m ∈ ms.filter (·.name = some name) := List.mem_filter.2 ⟨hm, by simp [hmname]⟩
    rw [if_pos ⟨m, hm, hmname⟩]
    split
    · next hnil => exact absurd (List.map_eq_nil_iff.1 hnil) (List.ne_nil_of_mem hmem)
    · rfl
  · have hnil : ms.filter (·.name = some name) = [] :=
      List.filter_eq_nil_iff.2 fun m hm => by simpa using fun hm' => hname ⟨m, hm, hm'⟩
    rw [if_neg hname, hnil]
    rfl

include h hcs in
theorem methodNames_eq : cat.methodNames = firsts id (ms.filterMap Member.name) := by
  have hnone : cs.filterMap Member.name = [] := List.filterMap_eq_nil_iff.2 hcs
  rw [methodNames, distinctOn_eq_firsts, h, List.filterMap_map]
  show firsts id ((cs ++ ms).filterMap Member.name) = _
  rw [List.filterMap_append, hnone, List.nil_append]

include h hcs hms in
/-- Entries made from constructors and then methods are listed as such. -/
theorem lists_of_entries : cat.Lists cs ms where
  constructors := constructors_eq h hcs hms
  methods? := methods?_eq h hcs
  methodNames := methodNames_eq h hcs
  nodup := by
    have hnodup := cat.handles_nodup
    rwa [h, List.map_map] at hnodup
  find? handle o := by
    rw [find?_eq_some_iff, h, List.mem_map]
    constructor
    · rintro ⟨⟨m, hm, rfl⟩, hhandle⟩
      exact ⟨m, hm, hhandle, rfl⟩
    · rintro ⟨m, hm, rfl, rfl⟩
      exact ⟨⟨m, hm, rfl⟩, rfl⟩

end

end Catalogue

namespace Host

variable {h : Host} {settings : Settings} {t : TypeId}

theorem catalogue_of_targetDecl {d : TypeDecl} (hd : h.targetDecl t = .ok d) :
    h.catalogue settings t = ((h.callableMembers settings t).map Overload.ofMember).foldlM
      Catalogue.insert (.empty t d.name) := by
  rw [catalogue, hd]

theorem entries_of_catalogue {cat : Catalogue} (hcat : h.catalogue settings t = .ok cat) :
    cat.entries = distinctOn id ((h.callableMembers settings t).map Overload.ofMember) := by
  rw [catalogue] at hcat
  split at hcat
  · cases hcat
  · exact Catalogue.entries_of_foldlM hcat

end Host

namespace Registry

/-! ## Built from a type -/

theorem name_of_mem_lineage {r : Registry} (hkinds : r.MembersByKind) {t : TypeId} {m : Member}
    (hm : m ∈ (r.lineage t).flatMap TypeDecl.methods) : m.name ≠ none := by
  obtain ⟨d, hd, hmd⟩ := List.mem_flatMap.1 hm
  obtain ⟨u, -, hu⟩ := List.mem_filterMap.1 hd
  exact (hkinds u d hu).2 m hmd

/-- What hides a later method is any earlier declaration of its signature, public or not. -/
theorem publicMethods_eq {r : Registry} (hkinds : r.MembersByKind) (t : TypeId) :
    r.publicMethods t =
      (firsts Member.signature ((r.lineage t).flatMap TypeDecl.methods)).filter Member.isPublic := by
  rw [publicMethods, Host.publicMethods, host_methods, methods_eq, ← distinctOn_eq_firsts]
  congr 1
  refine distinctOn_congr fun m hm n hn => ?_
  obtain ⟨a, ha⟩ := Option.ne_none_iff_exists'.1 (name_of_mem_lineage hkinds hm)
  obtain ⟨b, hb⟩ := Option.ne_none_iff_exists'.1 (name_of_mem_lineage hkinds hn)
  simp [Member.hidingKey, Member.signature, ha, hb]

theorem publicConstructors_eq {r : Registry} {t : TypeId} {d : TypeDecl} (hd : r.find? t = some d) :
    r.publicConstructors t = d.constructors.filter Member.isPublic := by
  rw [publicConstructors, Host.publicConstructors, host_constructors, Registry.constructors_eq, hd]
  rfl

theorem name_of_mem_publicMethods {r : Registry} (hkinds : r.MembersByKind) {t : TypeId}
    {m : Member} (hm : m ∈ r.publicMethods t) : m.name ≠ none :=
  name_of_mem_lineage hkinds ((distinctOn_sublist _ _).mem (List.mem_filter.1 hm).1)

/-- No two of the members to catalogue have the same signature: constructors by the check of
members, methods by hiding, and a constructor has no name while a method has one. -/
theorem nodup_callable_signatures {r : Registry} (hr : r.Reachable) (hkinds : r.MembersByKind) {t : TypeId}
    {d : TypeDecl} (hd : r.find? t = some d) :
    ((r.publicConstructors t ++ r.publicMethods t).map Member.signature).Nodup := by
  rw [List.map_append, List.nodup_append]
  refine ⟨?_, ?_, ?_⟩
  · rw [publicConstructors_eq hd]
    have hsub : (d.constructors.filter Member.isPublic).Sublist d.members :=
      List.filter_sublist.trans (List.sublist_append_left _ _)
    exact (hr.nodup_signatures hd).sublist (hsub.map Member.signature)
  · rw [publicMethods_eq hkinds, ← distinctOn_eq_firsts]
    exact (nodup_map_distinctOn _ _).sublist (List.filter_sublist.map Member.signature)
  · intro s hcs s' hms heq
    obtain ⟨c, hc, rfl⟩ := List.mem_map.1 hcs
    obtain ⟨m, hm, rfl⟩ := List.mem_map.1 hms
    rw [publicConstructors_eq hd] at hc
    have hcname : c.name = none := (hkinds t d hd).1 c (List.mem_filter.1 hc).1
    have hname : c.name = m.name := congrArg Signature.name heq
    exact name_of_mem_publicMethods hkinds hm (hname ▸ hcname)

/-- A registered type has a catalogue only of its callable members. -/
theorem entries_of_catalogue {r : Registry} {settings : Settings} {t : TypeId} {cat : Catalogue}
    (h : r.catalogue settings t = .ok cat) :
    cat.entries = distinctOn id ((r.callableMembers settings t).map Overload.ofMember) :=
  Host.entries_of_catalogue h

theorem callableMembers_eq {r : Registry} {settings : Settings} {t : TypeId} {d : TypeDecl}
    (hd : r.find? t = some d) (hs : settings.redirect = false ∨ d.isPublic) :
    r.callableMembers settings t = r.publicConstructors t ++ r.publicMethods t := by
  have hoff : (settings.redirect && !r.isExposed t) = false := by
    rcases hs with hs | hs <;> simp [isExposed_of_find? hd, hs]
  rw [callableMembers, Host.callableMembers, host_isExposed, hoff]
  rfl

/-- **What the catalogue of a type holds without redirection:** its own public constructors in
declared order and, along its lineage, the public methods of whose signature there is no earlier
declaration. -/
theorem Reachable.catalogue_lists {r : Registry} (hr : r.Reachable) (hkinds : r.MembersByKind)
    {t : TypeId} {d : TypeDecl} (hd : r.find? t = some d) {settings : Settings}
    (hs : settings.redirect = false ∨ d.isPublic) {cat : Catalogue}
    (hcat : r.catalogue settings t = .ok cat) :
    cat.Lists (d.constructors.filter Member.isPublic)
      ((firsts Member.signature ((r.lineage t).flatMap TypeDecl.methods)).filter
        Member.isPublic) := by
  have hnodup : ((r.publicConstructors t ++ r.publicMethods t).map Overload.ofMember).Nodup :=
    .of_map (fun o : Overload => (⟨o.name, o.params⟩ : Signature))
      (by rw [List.map_map]; exact nodup_callable_signatures hr hkinds hd)
  have hentries := entries_of_catalogue hcat
  rw [callableMembers_eq hd hs, distinctOn_of_nodup (by rwa [List.map_id])] at hentries
  rw [← publicConstructors_eq hd, ← publicMethods_eq hkinds]
  refine Catalogue.lists_of_entries hentries (fun m hm => ?_) fun m hm => ?_
  · rw [publicConstructors_eq hd] at hm
    exact (hkinds t d hd).1 m (List.mem_filter.1 hm).1
  · exact name_of_mem_publicMethods hkinds hm

theorem membersByKind_sample : sample.MembersByKind :=
  forall_find? (p := fun d => (∀ m ∈ d.constructors, m.name = none) ∧
    ∀ m ∈ d.methods, m.name ≠ none) (by decide +kernel)

/-- `Cat` has the methods of `Animal` and `Named`, but not `feed`, which it declares for itself
only. -/
theorem catalogue_lists_sample : ∃ d cat, sample.find? (.ofName "Cat") = some d ∧
    sample.catalogue default (.ofName "Cat") = .ok cat ∧
    cat.Lists (d.constructors.filter Member.isPublic)
      ((firsts Member.signature ((sample.lineage (.ofName "Cat")).flatMap TypeDecl.methods)).filter
        Member.isPublic) ∧
    cat.methodNames = ["meet"] ∧ (cat.methods? "meet").map List.length = some 3 ∧
    cat.methods? "feed" = none := by
  have hd : ((sample.find? (.ofName "Cat")).any TypeDecl.isPublic) = true := by decide +kernel
  obtain ⟨d, hfind, hpublic⟩ := (Option.any_eq_true _ _).1 hd
  obtain ⟨cat, hcat⟩ : ∃ cat, sample.catalogue default (.ofName "Cat") = .ok cat :=
    exists_eq_ok (by decide +kernel)
  have h := regular_sample.reachable.catalogue_lists membersByKind_sample hfind (.inr hpublic) hcat
  refine ⟨d, cat, hfind, hcat, h, ?_, ?_, ?_⟩
  · rw [h.methodNames]
    decide +kernel
  · rw [h.methods?]
    decide +kernel
  · rw [h.methods?]
    decide +kernel

end Registry
end CallResolution
