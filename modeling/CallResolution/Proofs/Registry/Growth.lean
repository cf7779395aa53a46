/-
# Growing registries

Whatever is registered later, refused or not, the declarations that were there are still found and
the edges from their types are the same (`grows_applyAll`): a registration stores under an identity
that was free, and records edges only for the type it stores (`grows_of_apply`).  Edges may still
appear above a registered type, at a supertype that is declared late.  If all that is visited on the
way up is registered, however, the way up remains as it is (`Grows.ancestors_eq`).
-/

import CallResolution.Proofs.Registry.Reachable

namespace CallResolution

namespace Registry

/-- What is registered in `r` is registered in `s` with the same declaration and the same edges. -/
structure Grows (r s : Registry) : Prop where
  find? {t : TypeId} {d : TypeDecl} : r.find? t = some d → s.find? t = some d
  edgesFrom {t : TypeId} {d : TypeDecl} : r.find? t = some d →
    s.hierarchy.edgesFrom t = r.hierarchy.edgesFrom t

variable {r s u : Registry}

theorem Grows.refl (r : Registry) : r.Grows r := ⟨id, fun _ => rfl⟩

theorem Grows.trans (g : r.Grows s) (g' : s.Grows u) : r.Grows u where
  find? hd := g'.find? (g.find? hd)
  edgesFrom hd := (g'.edgesFrom (g.find? hd)).trans (g.edgesFrom hd)

/-- **One registration** leaves alone what is registered. -/
theorem grows_of_apply {x : Registration} (h : r.apply x = .ok s) : r.Grows s where
  find? := find?_of_apply h
  edgesFrom {t d} hd := by
    rcases apply_cases h with rfl | ⟨e, -, g⟩
    · rfl
    · rw [g.edgesFrom, if_neg (g.id_ne hd)]

/-- **Any number of registrations** leaves alone what is registered. -/
theorem grows_applyAll (r : Registry) (xs : List Registration) : r.Grows (r.applyAll xs).2 := by
  induction xs generalizing r with
  | nil => exact .refl r
  | cons x xs ih =>
    rw [applyAll]
    split
    · next s h => exact (grows_of_apply h).trans (ih s)
    · exact ih r

namespace Grows

variable {t : TypeId} (g : r.Grows s)
  (hvisited : ∀ a ∈ t :: r.ancestors t, ∃ d, r.find? a = some d)

include g hvisited

theorem find?_eq {a : TypeId} (ha : a ∈ t :: r.ancestors t) : s.find? a = r.find? a := by
  obtain ⟨d, hd⟩ := hvisited a ha
  rw [hd, g.find? hd]

/-- **The way up from a type stays as it is** if all that is visited on it is registered. -/
theorem ancestors_eq : s.ancestors t = r.ancestors t := by
  refine (Hierarchy.ancestors_congr fun a ha => ?_).symm
  obtain ⟨d, hd⟩ := hvisited a ha
  exact Hierarchy.parents_congr (g.edgesFrom hd).symm

end Grows

end Registry
end CallResolution
