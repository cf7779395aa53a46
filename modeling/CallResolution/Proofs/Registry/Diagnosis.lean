/-
# What the problems of a registry tell

The supertypes reported as missing are those that registered types declare and nobody registers, each
of them once (`missing_eq`): a report is made for the first edge that leads to such a type, and what
has been reported is passed over for the edges that follow.

Each edge is checked by itself, when the later of its two types is registered or afterwards.  If all
edges pass and there is no cycle, the checks add up along the ways that edges make (`Layered`): a way
ends at a class or an interface, it stays among interfaces once it has come to one, and it never
comes back to where it began.
-/

import CallResolution.Proofs.Registry.Validation
import CallResolution.Proofs.Registry.Walk

namespace CallResolution

/-- The type that an error reports as missing. -/
def DeclError.missing? : DeclError → Option TypeId
  | .typeNotFound (.element t) => some t
  | .typeNotFound (.supertype t _) => some t
  | _ => none

namespace TypeDecl

variable {d s : TypeDecl}

theorem missing?_of_supertypeError? {e : DeclError} (h : d.supertypeError? s = some e) :
    e.missing? = none := by
  unfold supertypeError? at h
  obtain ⟨fault, -, rfl⟩ := Option.map_eq_some_iff.1 h
  rfl

/-- Only classes and interfaces can be extended. -/
theorem isReference_of_supertypeError? (h : d.supertypeError? s = none) : s.isReference := by
  rw [isReference, Bool.or_eq_true]
  cases d with
  | ofClass c =>
    rw [supertypeError?_ofClass] at h
    split at h
    · exact .inl h
    · exact .inr h
  | ofInterface i => exact .inr (supertypeError?_ofInterface.1 h)
  | ofPrimitive _ | ofArray _ => cases h

/-- Interfaces can extend interfaces only. -/
theorem isInterface_of_supertypeError? (hd : d.isInterface) (h : d.supertypeError? s = none) :
    s.isInterface := by
  cases d with
  | ofInterface i => exact supertypeError?_ofInterface.1 h
  | ofPrimitive _ | ofClass _ | ofArray _ => cases hd

end TypeDecl

namespace Registry

variable {r : Registry}

/-! ## Missing supertypes -/

/-- The types that are reported as missing, in the order of the reports. -/
def missing (r : Registry) : List TypeId := r.problems.filterMap DeclError.missing?

/-- The supertypes that edges of registered types lead to and that are not registered, edge after
edge. -/
def dangling (r : Registry) (edges : List (TypeId × TypeId)) : List TypeId :=
  (edges.filter fun e => (r.find? e.1).isSome && (r.find? e.2).isNone).map Prod.snd

theorem missing_edgeErrors (reported : List TypeId) (edges : List (TypeId × TypeId)) :
    (r.edgeErrors reported edges).filterMap DeclError.missing? =
      (distinctOn id (r.dangling edges)).filter fun t => !reported.contains t := by
  induction edges generalizing reported with
  | nil => rfl
  | cons e edges ih =>
    obtain ⟨sub, sup⟩ := e
    unfold edgeErrors
    split
    · next hsub =>
      have hskip : r.dangling ((sub, sup) :: edges) = r.dangling edges := by simp [dangling, hsub]
      rw [ih, hskip]
    · next d s hd hs =>
      have hskip : r.dangling ((sub, sup) :: edges) = r.dangling edges := by simp [dangling, hs]
      have hnone : (d.supertypeError? s).toList.filterMap DeclError.missing? = [] := by
        rw [List.filterMap_eq_nil_iff]
        intro e he
        exact TypeDecl.missing?_of_supertypeError? (Option.mem_toList.1 he)
      rw [List.filterMap_append, hnone, List.nil_append, ih, hskip]
    · next d hd hs =>
      have hnew : r.dangling ((sub, sup) :: edges) = sup :: r.dangling edges := by
        simp [dangling, hd, hs]
      rw [hnew, distinctOn]
      split
      · next hrep =>
        -- what is passed over here is passed over again by the filter
        rw [ih, List.filter_cons_of_neg (by simpa using hrep), List.filter_filter]
        refine List.filter_congr fun t _ => ?_
        by_cases ht : t = sup
        · simp [ht, List.contains_iff_mem.1 hrep]
        · simp [ht]
      · next hrep =>
        rw [List.filterMap_cons_some (show DeclError.missing? _ = some sup from rfl), ih,
          List.filter_cons_of_pos (by simpa using hrep), List.filter_filter]
        congr 1
        refine List.filter_congr fun t _ => ?_
        by_cases ht : t = sup <;> simp [ht]

/-- **Missing supertypes are reported in the order of the first edges that lead to them.** -/
theorem missing_eq (r : Registry) : r.missing = distinctOn id (r.dangling r.hierarchy.edges) := by
  have hcycle : (if r.hierarchy.isCyclic then [DeclError.inheritanceCycle] else []).filterMap
      DeclError.missing? = [] := by
    split <;> rfl
  rw [missing, problems, List.filterMap_append, hcycle, List.append_nil, missing_edgeErrors]
  simp

theorem nodup_missing (r : Registry) : r.missing.Nodup := by
  rw [missing_eq]
  have h := nodup_map_distinctOn id (r.dangling r.hierarchy.edges)
  rwa [List.map_id] at h

theorem Reachable.mem_missing (hr : r.Reachable) {t : TypeId} :
    t ∈ r.missing ↔ r.find? t = none ∧ ∃ u, r.Declares u t := by
  rw [missing_eq, mem_distinctOn_id, dangling, List.mem_map]
  simp only [List.mem_filter, Bool.and_eq_true, Option.isNone_iff_eq_none]
  rw [← hr.extends_eq]
  constructor
  · rintro ⟨⟨u, t⟩, ⟨hedge, -, hnone⟩, rfl⟩
    exact ⟨hnone, u, hedge⟩
  · rintro ⟨hnone, u, hedge⟩
    have hu : r.Declares u t := by rwa [← hr.extends_eq]
    obtain ⟨d, hd, -⟩ := hu
    exact ⟨(u, t), ⟨hedge, by simp [hd], hnone⟩, rfl⟩

/-! ## Types above one another -/

theorem Reachable.mem_ancestors (hr : r.Reachable) {t u : TypeId} :
    u ∈ r.ancestors t ↔ u ≠ t ∧ Relation.TransGen r.Declares t u := by
  rw [ancestors, Hierarchy.mem_ancestors, hr.extends_eq]

/-- Where there are no problems, what a type declares as a supertype is registered and of a kind
that the type may extend. -/
theorem Reachable.exists_supertype (hr : r.Reachable) (hok : r.problems = []) {t u : TypeId}
    {d : TypeDecl} (hd : r.find? t = some d) (hu : r.Declares t u) :
    ∃ s, r.find? u = some s ∧ d.supertypeError? s = none := by
  rw [← hr.extends_eq] at hu
  exact (problems_eq_nil_iff.1 hok).1 t u hu d hd

/-- All that a way leads to are classes and interfaces. -/
theorem Reachable.exists_reference (hr : r.Reachable) (hok : r.problems = []) {t u : TypeId}
    (h : Relation.TransGen r.Declares t u) : ∃ s, r.find? u = some s ∧ s.isReference := by
  obtain ⟨a, -, hau⟩ := Relation.TransGen.tail'_iff.1 h
  have ⟨d, hd, _⟩ := hau
  obtain ⟨s, hs, hnone⟩ := hr.exists_supertype hok hd hau
  exact ⟨s, hs, TypeDecl.isReference_of_supertypeError? hnone⟩

/-- From an interface ways lead to interfaces only. -/
theorem Reachable.exists_interface (hr : r.Reachable) (hok : r.problems = []) {t u : TypeId}
    {d : TypeDecl} (hd : r.find? t = some d) (hi : d.isInterface)
    (h : Relation.TransGen r.Declares t u) : ∃ s, r.find? u = some s ∧ s.isInterface := by
  have step : ∀ {a b d}, r.find? a = some d → d.isInterface → r.Declares a b →
      ∃ s, r.find? b = some s ∧ s.isInterface := by
    intro a b d hd hi hab
    obtain ⟨s, hs, hnone⟩ := hr.exists_supertype hok hd hab
    exact ⟨s, hs, TypeDecl.isInterface_of_supertypeError? hi hnone⟩
  induction h with
  | single hab => exact step hd hi hab
  | tail _ hab ih =>
    obtain ⟨s, hs, hsi⟩ := ih
    exact step hs hsi hab

/-- What there is above the types of a registry, registered or not. -/
structure Layered (r : Registry) : Prop where
  /-- Above any type are registered classes and interfaces. -/
  reference {t u : TypeId} : u ∈ r.ancestors t → ∃ d, r.find? u = some d ∧ d.isReference
  /-- Above an interface are interfaces. -/
  interface {t u : TypeId} {d : TypeDecl} : r.find? t = some d → d.isInterface →
    u ∈ r.ancestors t → ∃ e, r.find? u = some e ∧ e.isInterface
  /-- Above an array or a primitive is nothing. -/
  value {t : TypeId} {d : TypeDecl} : r.find? t = some d → d.isArray ∨ d.isPrimitive →
    r.ancestors t = []
  /-- No two types are above each other. -/
  asymm {t u : TypeId} : u ∈ r.ancestors t → t ∉ r.ancestors u
  /-- No steps to declared supertypes lead back to where they began. -/
  acyclic (t : TypeId) : ¬Relation.TransGen r.Declares t t

theorem Reachable.ancestors_eq_nil (hr : r.Reachable) {t : TypeId} {d : TypeDecl}
    (hd : r.find? t = some d) (hparents : d.parents = []) : r.ancestors t = [] := by
  rw [List.eq_nil_iff_forall_not_mem]
  intro u hu
  obtain ⟨a, hta, -⟩ := Relation.TransGen.head'_iff.1 (hr.mem_ancestors.1 hu).2
  obtain ⟨e, he, ha⟩ := hta
  obtain rfl := find?_unique hd he
  simp [hparents] at ha

theorem Reachable.layered (hr : r.Reachable) (hok : r.problems = []) : r.Layered where
  reference hu := hr.exists_reference hok (hr.mem_ancestors.1 hu).2
  interface hd hi hu := hr.exists_interface hok hd hi (hr.mem_ancestors.1 hu).2
  value {t d} hd hkind := by
    refine hr.ancestors_eq_nil hd ?_
    cases d with
    | ofPrimitive _ | ofArray _ => rfl
    | ofClass _ | ofInterface _ => rcases hkind with h | h <;> cases h
  asymm {t u} hu ht := by
    have h := (Hierarchy.mem_ancestors.1 hu).2.trans (Hierarchy.mem_ancestors.1 ht).2
    exact Hierarchy.not_transGen_self (problems_eq_nil_iff.1 hok).2 t h
  acyclic t := by
    rw [← hr.extends_eq]
    exact Hierarchy.not_transGen_self (problems_eq_nil_iff.1 hok).2 t

/-- **What the problems of a registry tell.**  In a registry that any registrations lead to, a type
is reported as missing once if a registered type declares it as a supertype and it is not
registered, and otherwise not at all.  If nothing is reported, the types are layered: above any type
there are only registered classes and interfaces, above interfaces only interfaces, above arrays and
primitives nothing, and no way up leads back. -/
theorem Reachable.diagnosis (hr : r.Reachable) :
    r.missing.Nodup ∧ (∀ t, t ∈ r.missing ↔ r.find? t = none ∧ ∃ u, r.Declares u t) ∧
      (r.problems = [] → r.Layered) :=
  ⟨r.nodup_missing, fun _ => hr.mem_missing, hr.layered⟩

/-- Two classes that both are spirits, which are missing, and one of which extends another type that
is missing. -/
def haunted : Registry :=
  let spirit := TypeId.ofName "Spirit"
  (primitives.applyAll [
    .decl (.ofClass { ClassDecl.named "Cat" with
      base? := some (.ofName "Ghost"), interfaces := [spirit] }),
    .decl (.ofClass { ClassDecl.named "Dog" with interfaces := [spirit] })]).2

/-- The two missing types are reported once each, and without missing types the sample is layered. -/
theorem diagnosis_haunted :
    haunted.problems.length = 2 ∧ haunted.missing = [.ofName "Ghost", .ofName "Spirit"] ∧
      (∃ u, haunted.Declares u (.ofName "Spirit")) ∧
      sample.problems = [] ∧ sample.missing = [] ∧ sample.Layered := by
  have hr : haunted.Reachable := Regular.reachable (regular_primitives.applyAll (by decide +kernel))
  have hok : sample.problems = [] := by decide +kernel
  obtain ⟨-, hmissing, -⟩ := hr.diagnosis
  obtain ⟨-, -, hlayered⟩ := regular_sample.reachable.diagnosis
  exact ⟨by decide +kernel, by decide +kernel, ((hmissing _).1 (by decide +kernel)).2, hok,
    by decide +kernel, hlayered hok⟩

end Registry
end CallResolution
