/-
# What it means that there are no problems

A registry has no problems just when every edge of a registered type leads to a
registered type of a kind it may extend, and there is no inheritance cycle
(`problems_eq_nil_iff`).  Which edge was recorded first plays no part in it.  Above a registered
type there are then only registered ones (`exists_find?_of_visited`).
-/

import CallResolution.Proofs.Hierarchy.Cycles
import CallResolution.Registry.Problems

namespace CallResolution

namespace TypeDecl

variable {d s : TypeDecl}

/-- A class can extend the class that is its base and interfaces. -/
theorem supertypeError?_ofClass {c : ClassDecl} : (ofClass c).supertypeError? s = none ↔
    if c.base? = some s.id then s.isClass = true else s.isInterface = true := by
  rw [supertypeError?, Option.map_eq_none_iff, supertypeFault?]
  split
  · cases s.isClass <;> simp
  · cases s.isInterface <;> simp

/-- An interface can extend interfaces. -/
theorem supertypeError?_ofInterface {i : InterfaceDecl} :
    (ofInterface i).supertypeError? s = none ↔ s.isInterface := by
  rw [supertypeError?, Option.map_eq_none_iff, supertypeFault?]
  cases s.isInterface <;> simp

end TypeDecl

namespace Registry

/-- What has to hold of an edge for the registered type it leads away from. -/
def EdgeSound (r : Registry) (a b : TypeId) : Prop :=
  ∀ d, r.find? a = some d → ∃ s, r.find? b = some s ∧ d.supertypeError? s = none

theorem edgeErrors_eq_nil_iff {r : Registry} {edges : List (TypeId × TypeId)} :
    r.edgeErrors [] edges = [] ↔ ∀ a b, (a, b) ∈ edges → r.EdgeSound a b := by
  induction edges with
  | nil => simp [edgeErrors]
  | cons e edges ih =>
    obtain ⟨sub, sup⟩ := e
    have hsplit : (∀ a b, (a, b) ∈ (sub, sup) :: edges → r.EdgeSound a b) ↔
        r.EdgeSound sub sup ∧ ∀ a b, (a, b) ∈ edges → r.EdgeSound a b := by
      simp only [List.mem_cons, Prod.mk.injEq]
      constructor
      · intro h
        exact ⟨h sub sup (.inl ⟨rfl, rfl⟩), fun a b hab => h a b (.inr hab)⟩
      · rintro ⟨hfirst, hrest⟩ a b (⟨rfl, rfl⟩ | hab)
        · exact hfirst
        · exact hrest a b hab
    rw [hsplit, ← ih, edgeErrors]
    split
    · next hsub => simp [EdgeSound, hsub]
    · next d s hd hs =>
      rw [List.append_eq_nil_iff, Option.toList_eq_nil_iff]
      simp [EdgeSound, hd, hs]
    · next d hd hs => simp [EdgeSound, hd, hs]

theorem problems_eq_nil_iff {r : Registry} : r.problems = [] ↔
    (∀ a b, (a, b) ∈ r.hierarchy.edges → r.EdgeSound a b) ∧ r.hierarchy.isCyclic = false := by
  rw [problems, List.append_eq_nil_iff, edgeErrors_eq_nil_iff]
  cases r.hierarchy.isCyclic <;> simp

/-- Whatever is visited on the way up from a registered type is registered. -/
theorem exists_find?_of_visited {r : Registry} (hok : r.problems = []) {t : TypeId} {d : TypeDecl}
    (hd : r.find? t = some d) {a : TypeId} (ha : a ∈ t :: r.ancestors t) :
    ∃ e, r.find? a = some e := by
  have hreach := Hierarchy.mem_cons_ancestors.1 ha
  induction hreach with
  | refl => exact ⟨d, hd⟩
  | @tail b c htb hbc ih =>
    obtain ⟨e, he⟩ := ih (Hierarchy.mem_cons_ancestors.2 htb)
    obtain ⟨s, hs, -⟩ := (problems_eq_nil_iff.1 hok).1 b c hbc e he
    exact ⟨s, hs⟩

end Registry
end CallResolution
