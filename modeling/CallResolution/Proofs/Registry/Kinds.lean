/-
# The kinds of declared supertypes

A class names its base in one place of its declaration and the types that it implements in
another, but an edge of the subtype graph does not tell which of the two it came from.  The check
of an edge takes it for that of the base whenever it leads there
(`TypeDecl.supertypeError?_ofClass`).  So what a class implements passes if it is an interface, and
also if the class names it as its base as well and it is a class.  Beyond this nothing passes that
should not, and nothing is refused: a registry has no problems just when no type extends itself and
the declared kinds pass (`Reachable.problems_eq_nil_iff_kindsPass`).

Where there are no problems the declared kinds are therefore the right ones unless some class
implements its own base (`Reachable.wellKinded_iff`, `not_wellKinded_doubled`).
-/

import CallResolution.Proofs.Registry.Diagnosis

namespace CallResolution

/-- Whether a class stands among the types that it implements as well as its base. -/
def TypeDecl.implementsBase : TypeDecl → Bool
  | .ofClass c => c.base?.any c.interfaces.contains
  | _ => false

theorem TypeDecl.implementsBase_ofClass {c : ClassDecl} :
    (ofClass c).implementsBase ↔ ∃ b, c.base? = some b ∧ b ∈ c.interfaces := by
  rw [implementsBase, Option.any_eq_true]
  simp only [List.contains_iff_mem]

namespace Registry

variable {r : Registry}

/-- `t` is registered as a class. -/
def HasClass (r : Registry) (t : TypeId) : Prop := (r.find? t).any TypeDecl.isClass

/-- `t` is registered as an interface. -/
def HasInterface (r : Registry) (t : TypeId) : Prop := (r.find? t).any TypeDecl.isInterface

/-- Every declared supertype is registered and of the kind that its place in the declaration asks
for. -/
structure WellKinded (r : Registry) : Prop where
  base {t b : TypeId} {c : ClassDecl} :
    r.find? t = some (.ofClass c) → c.base? = some b → r.HasClass b
  implemented {t i : TypeId} {c : ClassDecl} :
    r.find? t = some (.ofClass c) → i ∈ c.interfaces → r.HasInterface i
  extended {t b : TypeId} {i : InterfaceDecl} :
    r.find? t = some (.ofInterface i) → b ∈ i.bases → r.HasInterface b

/-- Every declared supertype is registered and of the kind that the check of its edge asks for: the
base of a class may be implemented as well. -/
structure KindsPass (r : Registry) : Prop where
  base {t b : TypeId} {c : ClassDecl} :
    r.find? t = some (.ofClass c) → c.base? = some b → r.HasClass b
  implemented {t i : TypeId} {c : ClassDecl} :
    r.find? t = some (.ofClass c) → i ∈ c.interfaces → c.base? = some i ∨ r.HasInterface i
  extended {t b : TypeId} {i : InterfaceDecl} :
    r.find? t = some (.ofInterface i) → b ∈ i.bases → r.HasInterface b

theorem HasClass.not_hasInterface {t : TypeId} (h : r.HasClass t) : ¬r.HasInterface t := by
  obtain ⟨d, hd, hclass⟩ := (Option.any_eq_true _ _).1 h
  rw [HasInterface, hd, Option.any_some]
  cases d with
  | ofClass c => exact Bool.false_ne_true
  | ofPrimitive _ | ofInterface _ | ofArray _ => cases hclass

/-- What passes is right except where a class implements its own base. -/
theorem wellKinded_iff_kindsPass : r.WellKinded ↔ r.KindsPass ∧
    ∀ t d, r.find? t = some d → d.implementsBase = false := by
  constructor
  · intro h
    refine ⟨⟨h.base, fun hc hi => .inr (h.implemented hc hi), h.extended⟩, fun t d hd => ?_⟩
    rw [← Bool.not_eq_true]
    intro hboth
    cases d with
    | ofClass c =>
      obtain ⟨b, hb, hi⟩ := TypeDecl.implementsBase_ofClass.1 hboth
      exact (h.base hd hb).not_hasInterface (h.implemented hd hi)
    | ofPrimitive _ | ofInterface _ | ofArray _ => cases hboth
  · rintro ⟨h, hsingle⟩
    refine ⟨h.base, fun {t i c} hc hi => (h.implemented hc hi).resolve_left fun hb => ?_, h.extended⟩
    exact absurd (TypeDecl.implementsBase_ofClass.2 ⟨i, hb, hi⟩) (by simp [hsingle t _ hc])

/-! ## The check of the edges -/

theorem edgeSound_iff {t u : TypeId} {d : TypeDecl} (hd : r.find? t = some d) :
    r.EdgeSound t u ↔ ∃ s, r.find? u = some s ∧ d.supertypeError? s = none := by
  constructor
  · exact fun h => h d hd
  · intro h e he
    exact find?_unique hd he ▸ h

/-- An edge that a class declares passes for the base of the class, and otherwise for an interface
that it implements. -/
theorem edgeSound_ofClass {t u : TypeId} {c : ClassDecl} (hc : r.find? t = some (.ofClass c)) :
    r.EdgeSound t u ↔ if c.base? = some u then r.HasClass u else r.HasInterface u := by
  have hpass : ∀ s, r.find? u = some s → ((TypeDecl.ofClass c).supertypeError? s = none ↔
      if c.base? = some u then s.isClass = true else s.isInterface = true) := by
    intro s hs
    rw [TypeDecl.supertypeError?_ofClass, id_of_find? hs]
  rw [edgeSound_iff hc]
  split
  · next hb =>
    rw [HasClass, Option.any_eq_true]
    exact exists_congr fun s => and_congr_right fun hs => by rw [hpass s hs, if_pos hb]
  · next hb =>
    rw [HasInterface, Option.any_eq_true]
    exact exists_congr fun s => and_congr_right fun hs => by rw [hpass s hs, if_neg hb]

theorem edgeSound_ofInterface {t u : TypeId} {i : InterfaceDecl}
    (hi : r.find? t = some (.ofInterface i)) : r.EdgeSound t u ↔ r.HasInterface u := by
  rw [edgeSound_iff hi, HasInterface, Option.any_eq_true]
  exact exists_congr fun _ => and_congr_right fun _ => TypeDecl.supertypeError?_ofInterface

/-- **The check of the edges is one of the declared kinds.** -/
theorem kindsPass_iff : r.KindsPass ↔ ∀ t u, r.Declares t u → r.EdgeSound t u := by
  constructor
  · rintro h t u ⟨d, hd, hu⟩
    cases d with
    | ofClass c =>
      rw [edgeSound_ofClass hd]
      rw [TypeDecl.parents, List.mem_append, Option.mem_toList] at hu
      split
      · next hb => exact h.base hd hb
      · next hb => exact (h.implemented hd (hu.resolve_left hb)).resolve_left hb
    | ofInterface i => exact (edgeSound_ofInterface hd).2 (h.extended hd hu)
    | ofPrimitive _ | ofArray _ => cases hu
  · intro h
    refine ⟨fun {t b c} hc hb => ?_, fun {t i c} hc hi => ?_, fun {t b i} hi hb => ?_⟩
    · have hsound := h t b ⟨_, hc, List.mem_append_left _ (Option.mem_toList.2 hb)⟩
      rwa [edgeSound_ofClass hc, if_pos hb] at hsound
    · have hsound := h t i ⟨_, hc, List.mem_append_right _ hi⟩
      rw [edgeSound_ofClass hc] at hsound
      split at hsound
      · next hb => exact .inl hb
      · exact .inr hsound
    · exact (edgeSound_ofInterface hi).1 (h t b ⟨_, hi, hb⟩)

/-- **When a registry has no problems**: when no type extends itself and all declared kinds pass. -/
theorem Reachable.problems_eq_nil_iff_kindsPass (hr : r.Reachable) : r.problems = [] ↔
    (∀ t, ¬Relation.TransGen r.Declares t t) ∧ r.KindsPass := by
  have hcyclic : r.hierarchy.isCyclic = false ↔ ∀ t, ¬Relation.TransGen r.Declares t t := by
    rw [← Bool.not_eq_true, Hierarchy.isCyclic_iff, hr.extends_eq, not_exists]
  have hedges : (∀ t u, (t, u) ∈ r.hierarchy.edges → r.EdgeSound t u) ↔ r.KindsPass := by
    rw [kindsPass_iff, ← hr.extends_eq]
    rfl
  rw [problems_eq_nil_iff, hcyclic, hedges, and_comm]

/-- **Whether the declared kinds are right where no problems are found.**  A registry that any
registrations lead to has no problems just when no type extends itself and every declared supertype
is registered and passes: the base of a class is a class, what an interface extends is an
interface, and what a class implements is an interface or the base of the class.  So where there are
no problems, each declared supertype is of the kind that its place asks for just when no class
implements its own base. -/
theorem Reachable.wellKinded_iff (hr : r.Reachable) :
    (r.problems = [] ↔ (∀ t, ¬Relation.TransGen r.Declares t t) ∧ r.KindsPass) ∧
      (r.problems = [] →
        (r.WellKinded ↔ ∀ t d, r.find? t = some d → d.implementsBase = false)) := by
  refine ⟨hr.problems_eq_nil_iff_kindsPass, fun hok => ?_⟩
  obtain ⟨-, hpass⟩ := hr.problems_eq_nil_iff_kindsPass.1 hok
  rw [wellKinded_iff_kindsPass]
  exact ⟨fun h => h.2, fun h => ⟨hpass, h⟩⟩

/-- No class of the sample implements its own base. -/
theorem wellKinded_sample : sample.problems = [] ∧ sample.WellKinded := by
  have hok : sample.problems = [] := by decide +kernel
  obtain ⟨-, hkinds⟩ := regular_sample.reachable.wellKinded_iff
  exact ⟨hok, (hkinds hok).2
    (forall_find? (p := fun d => d.implementsBase = false) (by decide +kernel))⟩

/-- A class whose base stands among the types that it implements as well. -/
def doubled : Registry :=
  let animal := TypeId.ofName "Animal"
  (primitives.applyAll [
    .decl (.ofClass { ClassDecl.named "Dog" with base? := some animal, interfaces := [animal] }),
    .decl (.ofClass (ClassDecl.named "Animal"))]).2

/-- **A class passes for an implemented type if it is the base as well.** -/
theorem not_wellKinded_doubled : doubled.Reachable ∧ doubled.problems = [] ∧
    (∃ c, doubled.find? (.ofName "Dog") = some (.ofClass c) ∧ .ofName "Animal" ∈ c.interfaces) ∧
    doubled.HasClass (.ofName "Animal") ∧ ¬doubled.WellKinded := by
  have hr : doubled.Reachable := Regular.reachable (regular_primitives.applyAll (by decide +kernel))
  let dog : ClassDecl := { ClassDecl.named "Dog" with
    base? := some (.ofName "Animal"), interfaces := [.ofName "Animal"] }
  have hdog : doubled.find? (.ofName "Dog") = some (.ofClass dog) := by decide +kernel
  have hclass : doubled.HasClass (.ofName "Animal") := by
    show (doubled.find? (.ofName "Animal")).any TypeDecl.isClass = true
    decide +kernel
  refine ⟨hr, by decide +kernel, ⟨dog, hdog, List.mem_singleton_self _⟩, hclass, fun h => ?_⟩
  exact hclass.not_hasInterface (h.implemented hdog (List.mem_singleton_self _))

end Registry
end CallResolution
