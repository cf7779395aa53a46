/-
# How deep arrays nest

In a registry that plain registrations lead to, an array type is stored after its
element type and under the identity that the element determines (`Regular.eq_arrayOf`).
Going from arrays to their elements therefore comes to an end at a registered type that
is no array, after fewer steps than types are registered (`Regular.exists_nested`).
-/

import CallResolution.Proofs.Registry.Reachable

namespace CallResolution
namespace Registry

/-- `t` is registered and `depth` arrays around `base`, which is registered and no array. -/
inductive Nested (r : Registry) (base : TypeId) : TypeId → Nat → Prop
  | base {d : TypeDecl} (h : r.find? base = some d) (hd : d.isArray = false) : Nested r base base 0
  | array {t : TypeId} {a : ArrayDecl} {depth : Nat} (h : r.find? t = some (.ofArray a))
      (he : Nested r base a.element depth) : Nested r base t (depth + 1)

/-- Types stay as deep as they are when declarations are added. -/
theorem Nested.mono {r s : Registry} (hrs : ∀ t d, r.find? t = some d → s.find? t = some d)
    {base t : TypeId} {depth : Nat} (h : r.Nested base t depth) : s.Nested base t depth := by
  induction h with
  | base h hd => exact .base (hrs _ _ h) hd
  | array h _ ih => exact .array (hrs _ _ h) ih

/-- Plain registrations store arrays only of registered elements. -/
theorem element_of_yields {r : Registry} {x : Registration} (hx : x.isPlain) {a : ArrayDecl}
    (h : x.Yields r (.ofArray a)) :
    ∃ d, r.find? a.element = some d ∧ a = .ofElement a.element d.name := by
  cases x with
  | decl d =>
    obtain ⟨rfl, -⟩ := h
    simp [Registration.isPlain, TypeDecl.isReference, TypeDecl.isClass, TypeDecl.isInterface] at hx
  | primitive p => cases h
  | array t =>
    obtain ⟨d, hd, ha⟩ := h
    obtain rfl := TypeDecl.ofArray.inj ha
    exact ⟨d, hd, rfl⟩

/-- The identity of an array type is determined by its element type. -/
theorem Regular.eq_arrayOf {r : Registry} (hr : r.Regular) {t : TypeId} {a : ArrayDecl}
    (h : r.find? t = some (.ofArray a)) : t = a.element.arrayOf := by
  obtain ⟨r', x, hx, hyields, -⟩ := hr.exists_yields h
  obtain ⟨e, -, ha⟩ := element_of_yields hx hyields
  rw [← id_of_find? h, ha]
  rfl

/-- The element type of a registered array type is registered. -/
theorem Regular.exists_find?_element {r : Registry} (hr : r.Regular) {t : TypeId} {a : ArrayDecl}
    (h : r.find? t = some (.ofArray a)) : ∃ d, r.find? a.element = some d := by
  obtain ⟨r', x, hx, hyields, hgrow⟩ := hr.exists_yields h
  obtain ⟨d, hd, -⟩ := element_of_yields hx hyields
  exact ⟨d, hgrow _ _ hd⟩

/-- **Arrays nest to a finite depth**, below the number of registered types. -/
theorem Regular.exists_nested {r : Registry} (hr : r.Regular) {t : TypeId} {d : TypeDecl}
    (h : r.find? t = some d) : ∃ base depth, r.Nested base t depth ∧ depth < r.size := by
  induction hr generalizing t d with
  | empty => simp at h
  | @apply r s x hr hx happly ih =>
    rcases apply_cases happly with rfl | ⟨e, hyields, g⟩
    · exact ih h
    · have grow : ∀ u c, r.find? u = some c → s.find? u = some c := fun u c =>
        find?_of_apply happly
      by_cases ht : e.id = t
      · obtain rfl : e = d := by
          rw [g.find?, if_pos ht] at h
          exact Option.some.inj h
        cases e with
        | ofArray a =>
          obtain ⟨c, hc, -⟩ := element_of_yields hx hyields
          obtain ⟨base, depth, hn, hlt⟩ := ih hc
          exact ⟨base, depth + 1, .array h (hn.mono grow), by rw [g.size]; omega⟩
        | ofPrimitive _ | ofClass _ | ofInterface _ =>
          exact ⟨t, 0, .base h rfl, by rw [g.size]; omega⟩
      · rw [g.find?, if_neg ht] at h
        obtain ⟨base, depth, hn, hlt⟩ := ih h
        exact ⟨base, depth, hn.mono grow, by rw [g.size]; omega⟩

end Registry
end CallResolution
