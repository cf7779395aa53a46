/-
# Whether catalogued methods are the most derived ones

Of declarations of one signature a catalogue has the one that is visited first.  It is
`MostDerived` if no visited subtype of the declaring type redeclares it as public.  Subtypes that
are visited before the declaring type never do (`Reachable.not_redeclares_of_visitedBefore`), so
the visiting order alone decides (`Reachable.mostDerived_iff`).

Where the declaring type is a class nothing can go wrong: where there are no problems only a class
directly extends a class (`EdgeSound.base?_eq`), so the walk comes to a class along the chain of base
classes.  An interface, however, may be visited before one of its subtypes, and then its
declaration hides the redeclaration (`not_mostDerived_overtaken`).
-/

import CallResolution.Proofs.Catalogue.Redirection
import CallResolution.Proofs.Hierarchy.Visits
import CallResolution.Proofs.Registry.Validation

namespace CallResolution
namespace Registry

variable {r : Registry}

/-! ## Overloads declared again -/

/-- `e` declares a public method with the name and the parameters of `o`. -/
def Redeclares (r : Registry) (e : TypeId) (o : Overload) : Prop :=
  ∃ d, r.find? e = some d ∧ ∃ m ∈ d.methods, m.isPublic ∧ m.name = o.name ∧ m.params = o.params

theorem redeclares_iff {e : TypeId} {o : Overload} : r.Redeclares e o ↔ (r.find? e).any fun d =>
    d.methods.any fun m => m.isPublic && m.name = o.name && m.params = o.params := by
  rw [Redeclares, Option.any_eq_true]
  simp [List.any_eq_true, and_assoc]

instance (r : Registry) (e : TypeId) (o : Overload) : Decidable (r.Redeclares e o) :=
  decidable_of_iff _ redeclares_iff.symm

/-- Neither `t` nor a supertype of `t` that is a subtype of the declaring type redeclares `o`. -/
def MostDerived (r : Registry) (t : TypeId) (o : Overload) : Prop :=
  ∀ e ∈ t :: r.ancestors t, o.declaring ∈ r.ancestors e → ¬r.Redeclares e o

instance (r : Registry) (t : TypeId) (o : Overload) : Decidable (r.MostDerived t o) :=
  inferInstanceAs (Decidable (∀ e ∈ t :: r.ancestors t, _ → _))

/-- On the way up from `t` the type `a` is visited before `b`. -/
def VisitedBefore (r : Registry) (t a b : TypeId) : Prop :=
  (t :: r.ancestors t).idxOf a < (t :: r.ancestors t).idxOf b

instance (r : Registry) (t a b : TypeId) : Decidable (r.VisitedBefore t a b) :=
  inferInstanceAs (Decidable (_ < _))

/-- One of two visited types is visited first. -/
theorem visitedBefore_or {t a b : TypeId} (ha : a ∈ t :: r.ancestors t) (hab : a ≠ b) :
    r.VisitedBefore t a b ∨ r.VisitedBefore t b a := by
  have hne := mt (List.idxOf_inj ha).1 hab
  rw [VisitedBefore, VisitedBefore]
  omega

/-- What a method that is not hidden could be hidden by is not declared on the types visited before
its own. -/
theorem Reachable.hidingKey_ne_of_visitedBefore (hr : r.Reachable) {t e : TypeId} {d : TypeDecl}
    {m n : Member} (hm : m ∈ r.methods t) (he : r.find? e = some d) (hn : n ∈ d.methods)
    (hbefore : r.VisitedBefore t e m.owner) : n.hidingKey ≠ m.hidingKey := by
  obtain ⟨before, after, hsplit⟩ :=
    List.append_of_mem (hr.owner_mem ((distinctOn_sublist _ _).mem hm))
  have hindex := fun a => @Hierarchy.idxOf_lt_idxOf _ before after m.owner a
    (r.hierarchy.nodup_cons_ancestors t) hsplit
  have hown : m.owner ∉ before := fun h => Nat.lt_irrefl _ ((hindex m.owner).2 h)
  have hmem : e ∈ before := (hindex e).1 hbefore
  rw [methods_eq, lineage, hsplit, List.filterMap_append, List.flatMap_append] at hm
  refine key_ne_of_mem_distinctOn_append hm (fun h => hown (hr.owner_mem h)) n ?_
  exact List.mem_flatMap.2 ⟨d, List.mem_filterMap.2 ⟨e, hmem, he⟩, hn⟩

/-! ## The chain of base classes -/

/-- Only a class directly extends a class, the one that is its base. -/
theorem EdgeSound.base?_eq {a b : TypeId} {d s : TypeDecl} (h : r.EdgeSound a b)
    (hd : r.find? a = some d) (hs : r.find? b = some s) (hclass : s.isClass) :
    ∃ c, d = .ofClass c ∧ c.base? = some b := by
  obtain ⟨s', hs', hnone⟩ := h d hd
  obtain rfl := find?_unique hs hs'
  have hinterface : s.isInterface = false := by cases s <;> first | rfl | cases hclass
  cases d with
  | ofClass c =>
    refine ⟨c, rfl, ?_⟩
    rw [TypeDecl.supertypeError?_ofClass, id_of_find? hs, hinterface] at hnone
    split at hnone
    · next hbase => exact hbase
    · cases hnone
  | ofInterface i =>
    rw [TypeDecl.supertypeError?_ofInterface, hinterface] at hnone
    cases hnone
  | ofPrimitive _ | ofArray _ => cases hnone

section

variable (hok : r.problems = []) {t : TypeId} {d : TypeDecl} (hd : r.find? t = some d)

include hok hd in
/-- Where there are no problems only classes lead to a class, as the base that they have. -/
theorem base?_of_extends {a b : TypeId} (ha : a ∈ t :: r.ancestors t)
    (hab : r.hierarchy.Extends a b) (hb : (r.find? b).any TypeDecl.isClass) :
    ∃ c, r.find? a = some (.ofClass c) ∧ c.base? = some b := by
  obtain ⟨da, hda⟩ := exists_find?_of_visited hok hd ha
  obtain ⟨s, hs, hsclass⟩ := (Option.any_eq_true _ _).1 hb
  obtain ⟨c, rfl, hc⟩ := ((problems_eq_nil_iff.1 hok).1 a b hab).base?_eq hda hs hsclass
  exact ⟨c, hda, hc⟩

include hok hd in
theorem isClass_of_extends (a : TypeId) (ha : a ∈ t :: r.ancestors t) (b : TypeId)
    (hab : r.hierarchy.Extends a b) (hb : (r.find? b).any TypeDecl.isClass) :
    (r.find? a).any TypeDecl.isClass := by
  obtain ⟨c, hc, -⟩ := base?_of_extends hok hd ha hab hb
  rw [hc]
  rfl

include hok hd in
theorem rightUnique_base : Relator.RightUnique
    (r.hierarchy.ExtendsIn t fun x => (r.find? x).any TypeDecl.isClass) := by
  rintro a b b' ⟨ha, hab, hb⟩ ⟨-, hab', hb'⟩
  obtain ⟨c, hc, hcb⟩ := base?_of_extends hok hd ha hab hb
  obtain ⟨c', hc', hcb'⟩ := base?_of_extends hok hd ha hab' hb'
  obtain rfl := TypeDecl.ofClass.inj (find?_unique hc hc')
  exact Option.some.inj (hcb.symm.trans hcb')

include hok hd in
/-- Where there are no problems a class is visited after all visited subtypes of it. -/
theorem visitedBefore_of_isClass {e x : TypeId} (he : e ∈ t :: r.ancestors t)
    (hx : x ∈ r.ancestors e) (hclass : (r.find? x).any TypeDecl.isClass) :
    r.VisitedBefore t e x :=
  Hierarchy.idxOf_lt_of_transGen (isClass_of_extends hok hd) (rightUnique_base hok hd)
    (problems_eq_nil_iff.1 hok).2 he (Hierarchy.mem_ancestors.1 hx).2 hclass

include hok hd in
/-- Of two classes that are visited one is above the other. -/
theorem mem_ancestors_or_of_isClass {a b : TypeId} (ha : a ∈ t :: r.ancestors t)
    (hb : b ∈ t :: r.ancestors t) (hab : a ≠ b) (hac : (r.find? a).any TypeDecl.isClass)
    (hbc : (r.find? b).any TypeDecl.isClass) : b ∈ r.ancestors a ∨ a ∈ r.ancestors b := by
  rcases Hierarchy.reflTransGen_or_of_kind (isClass_of_extends hok hd) (rightUnique_base hok hd)
    ha hb hac hbc with h | h
  · exact .inl ((List.mem_cons.1 (Hierarchy.mem_cons_ancestors.2 h)).resolve_left hab.symm)
  · exact .inr ((List.mem_cons.1 (Hierarchy.mem_cons_ancestors.2 h)).resolve_left hab)

end

/-! ## Catalogued methods -/

/-- A method in the catalogue of a public type is one of its methods, or is declared by the type
itself. -/
theorem Reachable.exists_of_mem_methodEntries (hr : r.Reachable) {t : TypeId}
    (ht : r.isExposed t) {settings : Settings} {cat : Catalogue}
    (hcat : r.catalogue settings t = .ok cat) {o : Overload} (ho : o ∈ cat.methodEntries) :
    ∃ m, o = .ofMember m ∧ (m ∈ r.methods t ∨ m.owner = t) := by
  obtain ⟨d, hd⟩ := exists_find?_of_catalogue hcat
  rw [isExposed_of_find? hd] at ht
  have hentry := (List.mem_filter.1 ho).1
  rw [entries_of_catalogue hcat, mem_distinctOn_id, callableMembers_eq hd (.inr ht)] at hentry
  obtain ⟨m, hm, rfl⟩ := List.mem_map.1 hentry
  refine ⟨m, rfl, (List.mem_append.1 hm).symm.imp (fun hm => (List.mem_filter.1 hm).1) fun hm => ?_⟩
  rw [publicConstructors_eq hd] at hm
  exact (hr.owner_eq hd (List.mem_append_left _ (List.mem_filter.1 hm).1)).1

/-- A catalogued method is not redeclared by a subtype that is visited before its declaring type. -/
theorem Reachable.not_redeclares_of_visitedBefore (hr : r.Reachable)
    (hacyclic : r.hierarchy.isCyclic = false) {t : TypeId} (ht : r.isExposed t)
    {settings : Settings} {cat : Catalogue} (hcat : r.catalogue settings t = .ok cat)
    {o : Overload} (ho : o ∈ cat.methodEntries) {e : TypeId} (he : e ∈ t :: r.ancestors t)
    (hsub : o.declaring ∈ r.ancestors e) (hbefore : r.VisitedBefore t e o.declaring) :
    ¬r.Redeclares e o := by
  obtain ⟨m, rfl, hm | hm⟩ := hr.exists_of_mem_methodEntries ht hcat ho
  · rintro ⟨d, hd, n, hn, -, hname, hparams⟩
    refine hr.hidingKey_ne_of_visitedBefore hm hd hn hbefore ?_
    rw [Member.hidingKey, Member.hidingKey, hname, hparams]
    rfl
  · -- then `t` itself would be above one of its supertypes
    have htop : (Overload.ofMember m).declaring = t := hm
    rw [htop, ancestors, Hierarchy.mem_ancestors] at hsub
    exact absurd (hsub.2.trans_right (Hierarchy.mem_cons_ancestors.1 he))
      (Hierarchy.not_transGen_self hacyclic t)

/-- **When a catalogued method is the most derived one.**  In a registry without problems, for a
method in the catalogue of a public type: just when no subtype of its declaring type that
redeclares it is visited after the declaring type.  So it is in any case if the declaring type is a
class. -/
theorem Reachable.mostDerived_iff (hr : r.Reachable) (hok : r.problems = []) {t : TypeId}
    (ht : r.isExposed t) {settings : Settings} {cat : Catalogue}
    (hcat : r.catalogue settings t = .ok cat) {o : Overload} (ho : o ∈ cat.methodEntries) :
    (r.MostDerived t o ↔ ∀ e ∈ t :: r.ancestors t, o.declaring ∈ r.ancestors e →
        r.VisitedBefore t o.declaring e → ¬r.Redeclares e o) ∧
      ((r.find? o.declaring).any TypeDecl.isClass → r.MostDerived t o) := by
  have hacyclic := (problems_eq_nil_iff.1 hok).2
  have hiff : r.MostDerived t o ↔ ∀ e ∈ t :: r.ancestors t, o.declaring ∈ r.ancestors e →
      r.VisitedBefore t o.declaring e → ¬r.Redeclares e o := by
    refine ⟨fun hmost e he hsub _ => hmost e he hsub, fun hafter e he hsub => ?_⟩
    have hne : e ≠ o.declaring := by
      rintro rfl
      exact r.hierarchy.not_mem_ancestors_self _ hsub
    rcases visitedBefore_or he hne with hbefore | hlater
    · exact hr.not_redeclares_of_visitedBefore hacyclic ht hcat ho he hsub hbefore
    · exact hafter e he hsub hlater
  refine ⟨hiff, fun hclass => hiff.2 fun e he hsub hlater => ?_⟩
  obtain ⟨d, hd⟩ := exists_find?_of_catalogue hcat
  exact absurd hlater (Nat.lt_asymm (visitedBefore_of_isClass hok hd he hsub hclass))

/-- What cats inherit from animals is the most derived, as animals are a class. -/
theorem mostDerived_sample : ∃ cat, sample.catalogue default (.ofName "Cat") = .ok cat ∧
    ∃ o ∈ cat.methodEntries, o.declaring = .ofName "Animal" ∧
      sample.MostDerived (.ofName "Cat") o := by
  obtain ⟨cat, hcat⟩ :=
    exists_eq_ok (x := sample.catalogue default (.ofName "Cat")) (by decide +kernel)
  let o := Overload.ofMember (.method (.ofName "Animal") "meet" [.ofName "Animal"])
  have ho : o ∈ cat.methodEntries := by
    rw [Catalogue.methodEntries, entries_of_catalogue hcat]
    decide +kernel
  refine ⟨cat, hcat, o, ho, rfl, ?_⟩
  exact (Reachable.mostDerived_iff regular_sample.reachable (by decide +kernel) (by decide +kernel)
    hcat ho).2 (by decide +kernel)

/-! ## Overtaken by a supertype -/

/-- Dogs are named beings and pets, and pets are named beings.  Both interfaces declare how to
meet. -/
def overtaken : Registry :=
  let named := TypeId.ofName "Named"
  let pet := TypeId.ofName "Pet"
  (primitives.applyAll [
    .decl (.ofClass { ClassDecl.named "Dog" with interfaces := [named, pet] }),
    .decl (.ofInterface ((InterfaceDecl.named "Named").addMethod "meet" [named])),
    .decl (.ofInterface
      { (InterfaceDecl.named "Pet").addMethod "meet" [named] with bases := [named] })]).2

/-- **A catalogued method may be redeclared by a subtype of its declaring type.**  Dogs have the
method of named beings, which are visited first, though pets redeclare it. -/
theorem not_mostDerived_overtaken : overtaken.Reachable ∧ overtaken.problems = [] ∧
    overtaken.isExposed (.ofName "Dog") ∧ ∃ cat,
      overtaken.catalogue default (.ofName "Dog") = .ok cat ∧ ∃ o ∈ cat.methodEntries,
        o.declaring = .ofName "Named" ∧ .ofName "Pet" ∈ overtaken.ancestors (.ofName "Dog") ∧
        o.declaring ∈ overtaken.ancestors (.ofName "Pet") ∧
        overtaken.Redeclares (.ofName "Pet") o ∧ ¬overtaken.MostDerived (.ofName "Dog") o := by
  have hr : overtaken.Reachable :=
    Regular.reachable (regular_primitives.applyAll (by decide +kernel))
  obtain ⟨cat, hcat⟩ :=
    exists_eq_ok (x := overtaken.catalogue default (.ofName "Dog")) (by decide +kernel)
  let o := Overload.ofMember (.method (.ofName "Named") "meet" [.ofName "Named"])
  have ho : o ∈ cat.methodEntries := by
    rw [Catalogue.methodEntries, entries_of_catalogue hcat]
    decide +kernel
  refine ⟨hr, ?_, ?_, cat, hcat, o, ho, rfl, ?_, ?_, ?_, ?_⟩ <;> decide +kernel

end Registry
end CallResolution
