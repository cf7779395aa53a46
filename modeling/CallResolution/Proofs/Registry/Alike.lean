/-
# Registries that answer alike

`r.Alike s` if both find the same declarations under identities and names and have
the same edges from every type, however their nodes are numbered and whatever the
order of registration was.  Nothing a registry is asked tells the two apart
(`Alike.answersAs`), they take the same registrations and stay alike (`Alike.apply`),
and neither has problems unless the other has (`Alike.problems_eq_nil`).
-/

import CallResolution.Catalogue.Build
import CallResolution.Proofs.Registry.Reachable
import CallResolution.Proofs.Registry.Validation

namespace CallResolution
namespace Registry

/-- Both registries hold the same declarations. -/
structure Alike (r s : Registry) : Prop where
  find? : r.find? = s.find?
  idOf? : r.idOf? = s.idOf?
  edges : r.hierarchy.SameEdges s.hierarchy

/-- Both registries answer all questions about types in the same way. -/
structure AnswersAs (r s : Registry) : Prop where
  find? (t : TypeId) : r.find? t = s.find? t
  findNamed? (name : String) : r.findNamed? name = s.findNamed? name
  idOf? (name : String) : r.idOf? name = s.idOf? name
  size : r.size = s.size
  ancestors (t : TypeId) : r.ancestors t = s.ancestors t
  conforms (sub sup : TypeId) : r.conforms sub sup = s.conforms sub sup
  constructors (t : TypeId) : r.constructors t = s.constructors t
  methods (t : TypeId) : r.methods t = s.methods t
  catalogue (settings : Settings) (t : TypeId) : r.catalogue settings t = s.catalogue settings t

namespace Alike

variable {r s u : Registry}

theorem refl (r : Registry) : r.Alike r := ⟨rfl, rfl, .refl _⟩

theorem symm (e : r.Alike s) : s.Alike r := ⟨e.find?.symm, e.idOf?.symm, e.edges.symm⟩

theorem trans (e : r.Alike s) (f : s.Alike u) : r.Alike u :=
  ⟨e.find?.trans f.find?, e.idOf?.trans f.idOf?, e.edges.trans f.edges⟩

/-! ## Questions -/

theorem size (e : r.Alike s) : r.size = s.size := by
  have heq : r.decls.Equiv s.decls := .of_forall_constGet?_eq fun t => congrFun e.find? t
  exact heq.size_eq

theorem ancestors (e : r.Alike s) : r.ancestors = s.ancestors := e.edges.ancestors

/-- To resolution the registries are one host. -/
theorem host (e : r.Alike s) : r.host = s.host := by
  rw [Registry.host, Registry.host, e.find?, e.ancestors]

theorem answersAs (e : r.Alike s) : r.AnswersAs s where
  find? t := congrFun e.find? t
  findNamed? name := by rw [Registry.findNamed?, Registry.findNamed?, e.idOf?, e.find?]
  idOf? name := congrFun e.idOf? name
  size := e.size
  ancestors t := congrFun e.ancestors t
  conforms sub sup := by rw [Registry.conforms, Registry.conforms, e.host]
  constructors t := by rw [Registry.constructors, Registry.constructors, e.host]
  methods t := by rw [Registry.methods, Registry.methods, e.host]
  catalogue settings t := by rw [Registry.catalogue, Registry.catalogue, e.host]

theorem problems_eq_nil (e : r.Alike s) (h : r.problems = []) : s.problems = [] := by
  rw [problems_eq_nil_iff] at h ⊢
  obtain ⟨hedges, hacyclic⟩ := h
  refine ⟨fun a b hab d hd => ?_, e.edges.isCyclic ▸ hacyclic⟩
  rw [← e.find?] at hd ⊢
  exact hedges a b (e.edges.mem_edges_iff.2 hab) d hd

/-! ## Registrations -/

theorem rejection? (e : r.Alike s) (d : TypeDecl) : r.rejection? d = s.rejection? d := by
  rw [Registry.rejection?, Registry.rejection?, contains_eq, contains_eq, contains_names,
    contains_names, e.find?, e.idOf?]

theorem store (e : r.Alike s) (d : TypeDecl) : (r.store d).Alike (s.store d) where
  find? := by
    funext t
    rw [find?_store, find?_store, e.find?]
  idOf? := by
    funext name
    rw [idOf?_store, idOf?_store, e.idOf?]
  edges := e.edges

theorem addParents (e : r.Alike s) (t : TypeId) (ts : List TypeId) :
    Alike { r with hierarchy := r.hierarchy.addParents t ts }
      { s with hierarchy := s.hierarchy.addParents t ts } :=
  ⟨e.find?, e.idOf?, e.edges.addParents t ts⟩

theorem declare (e : r.Alike s) {d : TypeDecl} {r' : Registry} (h : r.declare d = .ok r') :
    ∃ s', s.declare d = .ok s' ∧ r'.Alike s' := by
  obtain ⟨hrej, rfl⟩ := declare_eq_ok.1 h
  exact ⟨_, declare_eq_ok.2 ⟨e.rejection? d ▸ hrej, rfl⟩, (e.store d).addParents d.id d.parents⟩

/-- The same registration keeps registries alike. -/
theorem apply (e : r.Alike s) {x : Registration} {r' : Registry} (h : r.apply x = .ok r') :
    ∃ s', s.apply x = .ok s' ∧ r'.Alike s' := by
  cases x with
  | decl d => exact e.declare h
  | primitive p =>
    refine ⟨_, rfl, ?_⟩
    obtain rfl : r.addPrimitive p = r' := Except.ok.inj h
    rw [addPrimitive, addPrimitive, contains_eq, contains_eq, e.find?]
    split
    · exact e
    · exact e.store _
  | array t =>
    replace h : r.addArray t = .ok r' := h
    show ∃ s', s.addArray t = .ok s' ∧ r'.Alike s'
    rw [addArray, contains_eq, e.find?] at h
    rw [addArray, contains_eq]
    split at h
    · next hc => exact ⟨s, if_pos hc, Except.ok.inj h ▸ e⟩
    · next hc =>
      rw [if_neg hc]
      split at h
      · cases h
      · next d hd => exact ⟨_, rfl, Except.ok.inj h ▸ e.store _⟩

theorem applyAll (e : r.Alike s) {xs : List Registration} {r' : Registry}
    (h : r.applyAll xs = ([], r')) : ∃ s', s.applyAll xs = ([], s') ∧ r'.Alike s' := by
  induction xs generalizing r s with
  | nil => exact ⟨s, rfl, (Prod.mk.inj h).2 ▸ e⟩
  | cons x xs ih =>
    obtain ⟨mid, hx, hxs⟩ := applyAll_cons_eq_nil.1 h
    obtain ⟨mid', hx', e'⟩ := e.apply hx
    obtain ⟨s', hxs', e''⟩ := ih e' hxs
    exact ⟨s', applyAll_cons_eq_nil.2 ⟨mid', hx', hxs'⟩, e''⟩

end Alike
end Registry
end CallResolution
