/-
# What redirection does to a catalogue

A catalogue built with redirection is compared with one of the same type built without.
They differ only for a type that is not public, and only in methods declared on types that are
not public: each of these gives way to a public declaration of its signature, or goes
(`redirectedMethods_map`).  A declaration that takes the place of another has its signature
(`signature_of_publicDeclaration?`), so the signatures of what is catalogued are in any case
among those of the public members, in their order (`callableMembers_signatures`), and no two
are equal (`nodup_callableMembers`).  Therefore nothing collapses when the catalogue is filled,
and its entries are the members themselves (`Reachable.entries_eq`).
-/

import CallResolution.Proofs.Catalogue.Content
import CallResolution.Proofs.Hierarchy.Edges

namespace CallResolution
namespace Catalogue

/-- The constructors in the order in which they were found. -/
def constructorEntries (cat : Catalogue) : List Overload := cat.entries.filter (·.name = none)

/-- The methods in the order in which they were found. -/
def methodEntries (cat : Catalogue) : List Overload := cat.entries.filter (·.name ≠ none)

section

variable {cat : Catalogue} {cs ms : List Member}
  (h : cat.entries = (cs ++ ms).map Overload.ofMember) (hcs : ∀ m ∈ cs, m.name = none)
  (hms : ∀ m ∈ ms, m.name ≠ none)

include h hcs hms in
theorem constructorEntries_eq : cat.constructorEntries = cs.map Overload.ofMember := by
  have hall : cs.filter (·.name = none) = cs :=
    List.filter_eq_self.2 fun m hm => by simp [hcs m hm]
  have hnone : ms.filter (·.name = none) = [] :=
    List.filter_eq_nil_iff.2 fun m hm => by simp [hms m hm]
  rw [constructorEntries, h, List.filter_map]
  show ((cs ++ ms).filter (·.name = none)).map Overload.ofMember = _
  rw [List.filter_append, hall, hnone, List.append_nil]

include h hcs hms in
theorem methodEntries_eq : cat.methodEntries = ms.map Overload.ofMember := by
  have hnone : cs.filter (·.name ≠ none) = [] :=
    List.filter_eq_nil_iff.2 fun m hm => by simp [hcs m hm]
  have hall : ms.filter (·.name ≠ none) = ms :=
    List.filter_eq_self.2 fun m hm => by simp [hms m hm]
  rw [methodEntries, h, List.filter_map]
  show ((cs ++ ms).filter (·.name ≠ none)).map Overload.ofMember = _
  rw [List.filter_append, hall, hnone, List.nil_append]

end

end Catalogue

namespace Registry

variable {r : Registry}

/-- The public overload that a method stands for when it is called through `t`: itself if its
declaring type is public, and otherwise the first public declaration of its name and parameters
on the public supertypes of `t`, on classes before interfaces. -/
def accessible? (r : Registry) (t : TypeId) (o : Overload) : Option Overload :=
  let above := ((r.ancestors t).filterMap r.find?).filter TypeDecl.isPublic
  let owners := above.filter TypeDecl.isClass ++ above.filter TypeDecl.isInterface
  if r.isExposed o.declaring then some o
  else ((owners.flatMap TypeDecl.methods).find? fun m =>
    m.isPublic && m.name = o.name && m.params = o.params).map Overload.ofMember

/-! ## Members and their replacements -/

theorem signature_of_publicDeclaration? {owners : List TypeDecl} {m n : Member}
    (h : publicDeclaration? owners m = some n) : n.signature = m.signature := by
  have hn := List.find?_some h
  rw [Bool.and_eq_true, decide_eq_true_eq] at hn
  exact hn.2

/-- Primitives and arrays declare no methods, so it makes no difference that they are looked at with
the interfaces. -/
theorem publicAncestors_flatMap_methods (t : TypeId) :
    (r.publicAncestors t).flatMap TypeDecl.methods =
      let above := ((r.ancestors t).filterMap r.find?).filter TypeDecl.isPublic
      (above.filter TypeDecl.isClass ++ above.filter TypeDecl.isInterface).flatMap
        TypeDecl.methods := by
  have hsame : ∀ ds : List TypeDecl, (ds.filter TypeDecl.isInterface).flatMap TypeDecl.methods =
      (ds.filter (!·.isClass)).flatMap TypeDecl.methods := fun ds => by
    have hsplit : ds.filter TypeDecl.isInterface =
        (ds.filter (!·.isClass)).filter TypeDecl.isReference := by
      rw [List.filter_filter]
      exact List.filter_congr fun d _ => by cases d <;> rfl
    rw [hsplit]
    exact Hierarchy.flatMap_filter_eq TypeDecl.isReference _
      (fun d hd => by cases d <;> first | rfl | cases hd) _
  simp only [publicAncestors_eq, List.flatMap_append, hsame]

/-- What a method is redirected to is what its overload stands for. -/
theorem map_redirect (t : TypeId) (m : Member) :
    (if r.isExposed m.owner then some m else publicDeclaration? (r.publicAncestors t) m).map
      Overload.ofMember = r.accessible? t (.ofMember m) := by
  have hsig : ∀ n : Member, (n.isPublic && n.signature = m.signature) =
      (n.isPublic && n.name = m.name && n.params = m.params) := fun n => by
    simp [Member.signature, Bool.and_assoc]
  rw [accessible?, publicDeclaration?, publicAncestors_flatMap_methods]
  simp only [hsig]
  by_cases hm : r.isExposed m.owner
  · rw [if_pos hm, if_pos (show r.isExposed (Overload.ofMember m).declaring from hm)]
    rfl
  · rw [if_neg hm, if_neg (show ¬r.isExposed (Overload.ofMember m).declaring from hm)]
    rfl

theorem redirectedMethods_map (t : TypeId) : (r.redirectedMethods t).map Overload.ofMember =
    ((r.publicMethods t).map Overload.ofMember).filterMap (r.accessible? t) := by
  rw [redirectedMethods, Host.redirectedMethods, List.map_filterMap, List.filterMap_map]
  exact List.filterMap_congr fun m _ => map_redirect t m

/-! ## Signatures -/

/-- Redirection keeps signatures and their order. -/
theorem redirectedMethods_signatures (t : TypeId) :
    ((r.redirectedMethods t).map Member.signature).Sublist
      ((r.publicMethods t).map Member.signature) := by
  rw [redirectedMethods, Host.redirectedMethods, host_publicMethods]
  induction r.publicMethods t with
  | nil => exact .slnil
  | cons m ms ih =>
    rw [List.filterMap_cons]
    split
    · exact ih.cons _
    · next n hn =>
      have hsig : n.signature = m.signature := by
        split at hn
        · rw [Option.some.inj hn]
        · exact signature_of_publicDeclaration? hn
      rw [List.map_cons, List.map_cons, hsig]
      exact ih.cons_cons _

/-- Whatever the settings are, what is catalogued has signatures of public members, in their
order. -/
theorem callableMembers_signatures (settings : Settings) (t : TypeId) :
    ((r.callableMembers settings t).map Member.signature).Sublist
      ((r.publicConstructors t ++ r.publicMethods t).map Member.signature) := by
  rw [callableMembers, Host.callableMembers, List.map_append, List.map_append]
  refine (List.Sublist.refl _).append ?_
  split
  · exact redirectedMethods_signatures t
  · exact .refl _

/-- A catalogue is built for a registered type. -/
theorem exists_find?_of_catalogue {settings : Settings} {t : TypeId} {cat : Catalogue}
    (h : r.catalogue settings t = .ok cat) : ∃ d, r.find? t = some d := by
  rw [catalogue, Host.catalogue, Host.targetDecl] at h
  split at h
  · cases h
  · next d hd =>
    split at hd
    · cases hd
    · split at hd
      · cases hd
      · cases hd
      · cases hd
      · next d' hfind => exact ⟨_, hfind⟩

/-- **No two of the members to catalogue have the same signature**, redirected or not. -/
theorem nodup_callableMembers (hr : r.Reachable) (hkinds : r.MembersByKind) (settings : Settings)
    {t : TypeId} {d : TypeDecl} (hd : r.find? t = some d) :
    ((r.callableMembers settings t).map Member.signature).Nodup :=
  (nodup_callable_signatures hr hkinds hd).sublist (callableMembers_signatures settings t)

/-- The entries of a catalogue are the members to catalogue, none of them lost. -/
theorem Reachable.entries_eq (hr : r.Reachable) (hkinds : r.MembersByKind) {settings : Settings}
    {t : TypeId} {cat : Catalogue} (h : r.catalogue settings t = .ok cat) :
    cat.entries = (r.callableMembers settings t).map Overload.ofMember := by
  obtain ⟨d, hd⟩ := exists_find?_of_catalogue h
  have hnodup : ((r.callableMembers settings t).map Overload.ofMember).Nodup :=
    .of_map (fun o : Overload => (⟨o.name, o.params⟩ : Signature))
      (by rw [List.map_map]; exact nodup_callableMembers hr hkinds settings hd)
  rw [entries_of_catalogue h, distinctOn_of_nodup (by rwa [List.map_id])]

/-! ## With and without redirection -/

/-- For a public type the settings make no difference. -/
theorem catalogue_congr {t : TypeId} (ht : r.isExposed t) (settings settings' : Settings) :
    r.catalogue settings t = r.catalogue settings' t := by
  simp only [catalogue, Host.catalogue, Host.callableMembers, host_isExposed, ht, Bool.not_true,
    Bool.and_false]

theorem callableMembers_redirected {settings : Settings} (hs : settings.redirect) {t : TypeId}
    (ht : r.isExposed t = false) : r.callableMembers settings t =
      r.publicConstructors t ++ r.redirectedMethods t := by
  rw [callableMembers, Host.callableMembers, hs, host_isExposed, ht]
  rfl

theorem name_of_mem_publicConstructors (hkinds : r.MembersByKind) {t : TypeId} {d : TypeDecl}
    (hd : r.find? t = some d) {m : Member} (hm : m ∈ r.publicConstructors t) : m.name = none := by
  rw [publicConstructors_eq hd] at hm
  exact (hkinds t d hd).1 m (List.mem_filter.1 hm).1

theorem name_of_mem_redirectedMethods (hkinds : r.MembersByKind) {t : TypeId} {m : Member}
    (hm : m ∈ r.redirectedMethods t) : m.name ≠ none := by
  obtain ⟨n, hn, hnm⟩ :=
    List.mem_map.1 ((redirectedMethods_signatures t).mem (List.mem_map_of_mem hm))
  have hname : n.name = m.name := congrArg Signature.name hnm
  exact hname ▸ name_of_mem_publicMethods hkinds hn

/-- The overload is of a public method that a public type declares. -/
def DeclaredPublicly (r : Registry) (o : Overload) : Prop :=
  ∃ d, r.find? o.declaring = some d ∧ d.isPublic ∧ ∃ m ∈ d.methods, m.isPublic ∧ .ofMember m = o

/-- A method of a stored declaration is one of its declaring type. -/
theorem Reachable.declaredPublicly (hr : r.Reachable) {t : TypeId} {d : TypeDecl}
    (hd : r.find? t = some d) (hpublic : d.isPublic) {m : Member} (hm : m ∈ d.methods)
    (hmpublic : m.isPublic) : r.DeclaredPublicly (.ofMember m) := by
  have howner := (hr.owner_eq hd (List.mem_append_right _ hm)).1
  exact ⟨d, by rw [← hd, ← howner]; rfl, hpublic, m, hm, hmpublic, rfl⟩

/-- What redirection leaves are public methods of public types: those that are declared there and
are not redirected, and those found on public supertypes. -/
theorem Reachable.declaredPublicly_of_mem (hr : r.Reachable) {t : TypeId} {m : Member}
    (hm : m ∈ r.redirectedMethods t) : r.DeclaredPublicly (.ofMember m) := by
  obtain ⟨n, hn, hnm⟩ := List.mem_filterMap.1 hm
  split at hnm
  · next hexposed =>
    obtain rfl := Option.some.inj hnm
    obtain ⟨hmethods, hpublic⟩ := List.mem_filter.1 hn
    obtain ⟨d, hd, hnd⟩ := List.mem_flatMap.1 ((distinctOn_sublist _ _).mem hmethods)
    obtain ⟨u, -, hu⟩ := List.mem_filterMap.1 hd
    have howner := (hr.owner_eq hu (List.mem_append_right _ hnd)).1
    rw [host_isExposed, howner, isExposed_of_find? hu] at hexposed
    exact hr.declaredPublicly hu hexposed hnd hpublic
  · have hfound := List.find?_some hnm
    rw [Bool.and_eq_true] at hfound
    obtain ⟨d, hd, hmd⟩ := List.mem_flatMap.1 (List.mem_of_find?_eq_some hnm)
    rw [host_find?, host_publicAncestors, publicAncestors_eq] at hd
    have habove : d ∈ ((r.ancestors t).filterMap r.find?).filter TypeDecl.isPublic := by
      rcases List.mem_append.1 hd with hd | hd
      · exact (List.mem_filter.1 hd).1
      · exact (List.mem_filter.1 hd).1
    obtain ⟨hfind, hpublic⟩ := List.mem_filter.1 habove
    obtain ⟨u, -, hu⟩ := List.mem_filterMap.1 hfind
    exact hr.declaredPublicly hu hpublic hmd hfound.1

/-- **Redirection replaces and drops, and does nothing else.**  Of two catalogues of one type, the
first built with redirection and the second without, both have the same constructors, and all is
the same if the type is public.  If it is not, the methods of the first are those that the methods
of the second stand for (`accessible?`), in their order.  These are public methods that public
types declare, and no two of them have the same name and parameters. -/
theorem Reachable.redirection_replaces_or_drops (hr : r.Reachable) (hkinds : r.MembersByKind)
    {t : TypeId} {on off : Settings} (hon : on.redirect = true) (hoff : off.redirect = false)
    {cat cat' : Catalogue} (hcat : r.catalogue on t = .ok cat)
    (hcat' : r.catalogue off t = .ok cat') :
    cat.constructorEntries = cat'.constructorEntries ∧
      (r.isExposed t = true → cat = cat') ∧
      (r.isExposed t = false →
        cat.methodEntries = cat'.methodEntries.filterMap (r.accessible? t) ∧
        (∀ o ∈ cat.methodEntries, r.DeclaredPublicly o) ∧
        (cat.methodEntries.map fun o => (o.name, o.params)).Nodup) := by
  obtain ⟨d, hd⟩ := exists_find?_of_catalogue hcat
  have hcs : ∀ m ∈ r.publicConstructors t, m.name = none := fun m =>
    name_of_mem_publicConstructors hkinds hd
  have hms : ∀ m ∈ r.publicMethods t, m.name ≠ none := fun m => name_of_mem_publicMethods hkinds
  have hentries' := hr.entries_eq hkinds hcat'
  rw [callableMembers_eq hd (.inl hoff)] at hentries'
  cases hexposed : r.isExposed t with
  | true =>
    rw [catalogue_congr hexposed on off] at hcat
    obtain rfl : cat = cat' := Except.ok.inj (hcat.symm.trans hcat')
    exact ⟨rfl, fun _ => rfl, fun h => absurd h.symm Bool.false_ne_true⟩
  | false =>
    have hrs : ∀ m ∈ r.redirectedMethods t, m.name ≠ none := fun m =>
      name_of_mem_redirectedMethods hkinds
    have hentries := hr.entries_eq hkinds hcat
    have hmembers := callableMembers_redirected hon hexposed
    rw [hmembers] at hentries
    have hmethods := Catalogue.methodEntries_eq hentries hcs hrs
    refine ⟨?_, fun h => absurd h Bool.false_ne_true, fun _ => ⟨?_, fun o ho => ?_, ?_⟩⟩
    · rw [Catalogue.constructorEntries_eq hentries hcs hrs,
        Catalogue.constructorEntries_eq hentries' hcs hms]
    · rw [hmethods, Catalogue.methodEntries_eq hentries' hcs hms, redirectedMethods_map]
    · rw [hmethods] at ho
      obtain ⟨m, hm, rfl⟩ := List.mem_map.1 ho
      exact hr.declaredPublicly_of_mem hm
    · have hnodup := nodup_callableMembers hr hkinds on hd
      rw [hmembers, List.map_append] at hnodup
      have hpair : ((r.redirectedMethods t).map fun m => (m.name, m.params)).Nodup :=
        .of_map (fun p => (⟨p.1, p.2⟩ : Signature))
          (by rw [List.map_map]; exact (List.nodup_append.1 hnodup).2.1)
      rw [hmethods, List.map_map]
      exact hpair

/-- A class that is not public, with its base class and its interface.  Of its methods one is
declared by the interface too, one by the base class, and one by no other type. -/
def strayTypes : List TypeDecl :=
  let animal := TypeId.ofName "Animal"
  let named := TypeId.ofName "Named"
  let stray := { ClassDecl.named "Stray" with
    visibility := .package, base? := some animal, interfaces := [named] }
  [.ofClass ((ClassDecl.named "Animal").addMethod "feed" []),
    .ofInterface ((InterfaceDecl.named "Named").addMethod "meet" [named]),
    .ofClass ((((stray.addConstructor []).addMethod "meet" [named]).addMethod "feed" []).addMethod
      "hide" [])]

def strays : Registry := (primitives.applyAll (strayTypes.map .decl)).2

theorem redirection_replaces_or_drops_strays : strays.isExposed (.ofName "Stray") = false ∧
    ∃ cat cat', strays.catalogue ⟨.strict, true⟩ (.ofName "Stray") = .ok cat ∧
    strays.catalogue ⟨.strict, false⟩ (.ofName "Stray") = .ok cat' ∧
    cat.constructorEntries = cat'.constructorEntries ∧
    cat.methodEntries = cat'.methodEntries.filterMap (strays.accessible? (.ofName "Stray")) ∧
    cat'.methodEntries.map (·.name) = [some "meet", some "feed", some "hide"] ∧
    cat.methodEntries.map (·.declaring) = [.ofName "Named", .ofName "Animal"] := by
  have hr : strays.Reachable := Regular.reachable (regular_primitives.applyAll (by decide +kernel))
  have hkinds : strays.MembersByKind :=
    forall_find? (p := fun d => (∀ m ∈ d.constructors, m.name = none) ∧
      ∀ m ∈ d.methods, m.name ≠ none) (by decide +kernel)
  obtain ⟨cat, hcat⟩ := exists_eq_ok
    (x := strays.catalogue ⟨.strict, true⟩ (.ofName "Stray")) (by decide +kernel)
  obtain ⟨cat', hcat'⟩ := exists_eq_ok
    (x := strays.catalogue ⟨.strict, false⟩ (.ofName "Stray")) (by decide +kernel)
  obtain ⟨hctors, -, hredirect⟩ := hr.redirection_replaces_or_drops hkinds rfl rfl hcat hcat'
  have hexposed : strays.isExposed (.ofName "Stray") = false := by decide +kernel
  obtain ⟨hmethods, -, -⟩ := hredirect hexposed
  have hentries' := hr.entries_eq hkinds hcat'
  refine ⟨hexposed, cat, cat', hcat, hcat', hctors, hmethods, ?_, ?_⟩
  · rw [Catalogue.methodEntries, hentries']
    decide +kernel
  · rw [Catalogue.methodEntries, hr.entries_eq hkinds hcat]
    decide +kernel

end Registry
end CallResolution
