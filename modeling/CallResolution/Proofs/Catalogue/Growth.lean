/-
# Catalogues of growing registries

A catalogue is made from the declarations of its type and of the types above it.  Where there are no
problems these are all registered, and later registrations change neither which types these are nor
what they declare.  So what a registry without problems answers about a registered type, it answers
for ever, whatever is registered later and even if that makes problems
(`Reachable.catalogue_applyAll`).  A catalogue that was cached early is the one that would be built
late.
-/

import CallResolution.Proofs.Cache.Transparency
import CallResolution.Proofs.Registry.Growth
import CallResolution.Proofs.Registry.Members
import CallResolution.Proofs.Registry.Validation

namespace CallResolution
namespace Registry

variable {r s : Registry}

namespace Grows

variable {t : TypeId} (g : r.Grows s)
  (hvisited : ∀ a ∈ t :: r.ancestors t, ∃ d, r.find? a = some d)

include g hvisited

theorem constructors_eq : s.constructors t = r.constructors t := by
  rw [Registry.constructors_eq, Registry.constructors_eq, g.find?_eq hvisited List.mem_cons_self]

theorem lineage_eq : s.lineage t = r.lineage t := by
  rw [lineage, lineage, g.ancestors_eq hvisited]
  exact List.filterMap_congr fun a ha => g.find?_eq hvisited ha

theorem methods_eq : s.methods t = r.methods t := by
  rw [Registry.methods_eq, Registry.methods_eq, g.lineage_eq hvisited]

theorem publicAncestors_eq : s.publicAncestors t = r.publicAncestors t := by
  have hfound : (r.ancestors t).filterMap s.find? = (r.ancestors t).filterMap r.find? :=
    List.filterMap_congr fun a ha => g.find?_eq hvisited (List.mem_cons_of_mem t ha)
  simp only [Registry.publicAncestors_eq, g.ancestors_eq hvisited, hfound]

theorem isExposed_eq {a : TypeId} (ha : a ∈ t :: r.ancestors t) :
    s.isExposed a = r.isExposed a := by
  simp only [isExposed, Host.isExposed, host_find?, g.find?_eq hvisited ha]

theorem publicMethods_eq : s.publicMethods t = r.publicMethods t := by
  simp only [publicMethods, Host.publicMethods, host_methods, g.methods_eq hvisited]

/-- Redirection looks at the owners of methods, which are among the visited types. -/
theorem redirectedMethods_eq (hr : r.Reachable) : s.redirectedMethods t = r.redirectedMethods t := by
  rw [redirectedMethods, redirectedMethods, Host.redirectedMethods, Host.redirectedMethods,
    host_publicMethods, host_publicMethods, host_find?, host_find?, host_publicAncestors,
    host_publicAncestors,
    g.publicMethods_eq hvisited, g.publicAncestors_eq hvisited]
  refine List.filterMap_congr fun m hm => ?_
  have howner := hr.owner_mem ((distinctOn_sublist _ _).mem (List.mem_filter.1 hm).1)
  rw [host_isExposed, host_isExposed, g.isExposed_eq hvisited howner]

theorem callableMembers_eq (hr : r.Reachable) (settings : Settings) :
    s.callableMembers settings t = r.callableMembers settings t := by
  have hconstructors : s.publicConstructors t = r.publicConstructors t :=
    congrArg (List.filter Member.isPublic) (g.constructors_eq hvisited)
  rw [callableMembers, callableMembers, Host.callableMembers, Host.callableMembers,
    host_publicConstructors, host_publicConstructors, hconstructors, host_isExposed, host_isExposed,
    g.isExposed_eq hvisited List.mem_cons_self, host_redirectedMethods, host_redirectedMethods,
    g.redirectedMethods_eq hvisited hr, host_publicMethods, host_publicMethods,
    g.publicMethods_eq hvisited]

theorem catalogue_eq (hr : r.Reachable) (settings : Settings) :
    s.catalogue settings t = r.catalogue settings t := by
  simp only [catalogue, Host.catalogue, Host.targetDecl, host_find?, host_callableMembers,
    g.callableMembers_eq hvisited hr, g.find?_eq hvisited List.mem_cons_self]

end Grows

/-- **What a registry without problems answers about a registered type is final.**  Whatever is
registered later, whether it is taken or refused, the type has the same supertypes, constructors and
methods, and building its catalogue has the same outcome.  So a cache that was filled before gives
what a build gives after. -/
theorem Reachable.catalogue_applyAll (hr : r.Reachable) (hok : r.problems = []) {t : TypeId}
    {d : TypeDecl} (hd : r.find? t = some d) (later : List Registration) :
    let s := (r.applyAll later).2
    s.ancestors t = r.ancestors t ∧ s.constructors t = r.constructors t ∧
      s.methods t = r.methods t ∧ ∀ settings, s.catalogue settings t = r.catalogue settings t ∧
        ∀ c : Cache, c.Holds r settings → (c.fetch s settings t).1 = s.catalogue settings t := by
  have g := r.grows_applyAll later
  have hvisited : ∀ a ∈ t :: r.ancestors t, ∃ e, r.find? a = some e := fun a =>
    exists_find?_of_visited hok hd
  refine ⟨g.ancestors_eq hvisited, g.constructors_eq hvisited, g.methods_eq hvisited,
    fun settings => ?_⟩
  have hsame := g.catalogue_eq hvisited hr settings
  refine ⟨hsame, fun c hc => Cache.fetch_fst_of_kept fun cat hkept => ?_⟩
  rw [hsame]
  exact hc t cat hkept

/-- Later come kittens, which extend cats and a type that is missing, and cats once more, which are
refused.  The catalogue of cats is the same as before. -/
theorem catalogue_applyAll_sample :
    let cat := TypeId.ofName "Cat"
    let later := [.decl (.ofClass { ClassDecl.named "Kitten" with
        base? := some cat, interfaces := [.ofName "Playful"] }),
      .decl (.ofClass ((ClassDecl.named "Cat").addMethod "sleep" []))]
    let s := (sample.applyAll later).2
    s.size = sample.size + 1 ∧ s.problems ≠ [] ∧ (sample.catalogue default cat).isOk ∧
      s.catalogue default cat = sample.catalogue default cat := by
  intro cat later s
  have hd : (sample.find? cat).isSome := by decide +kernel
  obtain ⟨d, hd⟩ := Option.isSome_iff_exists.1 hd
  obtain ⟨-, -, -, h⟩ :=
    regular_sample.reachable.catalogue_applyAll (by decide +kernel) hd later
  exact ⟨by decide +kernel, by decide +kernel, by decide +kernel, (h default).1⟩

end Registry
end CallResolution
