/-
# Which public methods a catalogue has

Hiding comes before visibility: of all visited declarations of one signature the first one counts,
and it is dropped if it is not public.  So the catalogue of a public type has a method of some
signature just when a public declaration of it is visited before all that are not public
(`Reachable.offers_iff`).

To hide a public method by one that is not public should be the business of subtypes of its
declaring type, but nobody asks whether who hides is one.  Among classes the question does not
arise, as all classes that are visited lie on one chain of bases (`mem_ancestors_or_of_isClass`).  A
method of an interface, however, is lost to any class that happens to have a private method of this
signature and to be visited first (`not_offers_outranked`).
-/

import CallResolution.Proofs.Catalogue.MostDerived

namespace CallResolution

/-- Something with the name and the parameters of `o` can be called. -/
def Catalogue.Offers (cat : Catalogue) (o : Overload) : Prop :=
  ∃ e ∈ cat.entries, e.name = o.name ∧ e.params = o.params

instance (cat : Catalogue) (o : Overload) : Decidable (cat.Offers o) :=
  inferInstanceAs (Decidable (∃ e ∈ cat.entries, _))

/-- Where no name is empty, those hide each other that agree in name and parameters. -/
theorem Member.hidingKey_eq_iff {m n : Member} (hm : m.name ≠ some "") (hn : n.name ≠ some "") :
    m.hidingKey = n.hidingKey ↔ m.name = n.name ∧ m.params = n.params := by
  rw [hidingKey, hidingKey, Prod.mk.injEq]
  refine and_congr_left fun _ => ⟨fun h => ?_, fun h => h ▸ rfl⟩
  cases hmn : m.name with
  | none =>
    cases hnn : n.name with
    | none => rfl
    | some b =>
      rw [hmn, hnn] at h
      exact absurd (hnn.trans (congrArg some h.symm)) hn
  | some a =>
    cases hnn : n.name with
    | none =>
      rw [hmn, hnn] at h
      exact absurd (hmn.trans (congrArg some h)) hm
    | some b =>
      rw [hmn, hnn] at h
      exact congrArg some h

namespace Registry

variable {r : Registry}

/-! ## Declarations that conceal -/

/-- `e` declares a method with the name and the parameters of `o` that is not public. -/
def Conceals (r : Registry) (e : TypeId) (o : Overload) : Prop :=
  ∃ d, r.find? e = some d ∧
    ∃ m ∈ d.methods, m.isPublic = false ∧ m.name = o.name ∧ m.params = o.params

theorem conceals_iff {e : TypeId} {o : Overload} : r.Conceals e o ↔ (r.find? e).any fun d =>
    d.methods.any fun m => !m.isPublic && m.name = o.name && m.params = o.params := by
  rw [Conceals, Option.any_eq_true]
  simp [List.any_eq_true, and_assoc]

instance (r : Registry) (e : TypeId) (o : Overload) : Decidable (r.Conceals e o) :=
  decidable_of_iff _ conceals_iff.symm

/-- On the way up from `t` a public declaration of the signature of `o` is visited before all that
conceal it. -/
def Surfaces (r : Registry) (t : TypeId) (o : Overload) : Prop :=
  ∃ e ∈ t :: r.ancestors t, r.Redeclares e o ∧
    ∀ e' ∈ t :: r.ancestors t, r.Conceals e' o → r.VisitedBefore t e e'

instance (r : Registry) (t : TypeId) (o : Overload) : Decidable (r.Surfaces t o) :=
  inferInstanceAs (Decidable (∃ e ∈ t :: r.ancestors t, _))

/-- A visited subtype of the declaring type conceals `o`. -/
def Withdrawn (r : Registry) (t : TypeId) (o : Overload) : Prop :=
  ∃ e ∈ t :: r.ancestors t, o.declaring ∈ r.ancestors e ∧ r.Conceals e o

instance (r : Registry) (t : TypeId) (o : Overload) : Decidable (r.Withdrawn t o) :=
  inferInstanceAs (Decidable (∃ e ∈ t :: r.ancestors t, _))

/-- No type declares a method both as public and otherwise. -/
theorem Reachable.not_conceals (hr : r.Reachable) {e : TypeId} {o : Overload}
    (h : r.Redeclares e o) : ¬r.Conceals e o := by
  obtain ⟨d, hd, m, hm, hpublic, hmname, hmparams⟩ := h
  rintro ⟨d', hd', n, hn, hprivate, hnname, hnparams⟩
  obtain rfl := find?_unique hd hd'
  have hsignature : m.signature = n.signature := by
    rw [Member.signature, Member.signature, hmname, hmparams, hnname, hnparams]
  obtain rfl := List.inj_on_of_nodup_map (hr.nodup_signatures hd) (List.mem_append_right _ hm)
    (List.mem_append_right _ hn) hsignature
  rw [hpublic] at hprivate
  cases hprivate

/-- What does not surface is concealed before it is declared. -/
theorem Reachable.exists_conceals_before (hr : r.Reachable) {t u : TypeId} {o : Overload}
    (hu : u ∈ t :: r.ancestors t) (hdeclared : r.Redeclares u o) (h : ¬r.Surfaces t o) :
    ∃ e ∈ t :: r.ancestors t, r.Conceals e o ∧ r.VisitedBefore t e u := by
  by_contra hnone
  refine h ⟨u, hu, hdeclared, fun e he hconceals => ?_⟩
  have hne : u ≠ e := by
    rintro rfl
    exact hr.not_conceals hdeclared hconceals
  exact (visitedBefore_or hu hne).resolve_right fun hbefore => hnone ⟨e, he, hconceals, hbefore⟩

/-! ## The first declaration of a signature -/

/-- Methods of a type are declared by visited types. -/
theorem Reachable.exists_find?_of_mem_methods (hr : r.Reachable) {t : TypeId} {m : Member}
    (hm : m ∈ r.methods t) : m.owner ∈ t :: r.ancestors t ∧
      ∃ d, r.find? m.owner = some d ∧ m ∈ d.methods ∧ m.name ≠ some "" := by
  obtain ⟨d, hd, hmd⟩ := List.mem_flatMap.1 ((distinctOn_sublist _ _).mem hm)
  obtain ⟨u, hu, hfind⟩ := List.mem_filterMap.1 hd
  obtain ⟨rfl, hname⟩ := hr.owner_eq hfind (List.mem_append_right _ hmd)
  exact ⟨hu, d, hfind, hmd, hname⟩

/-- **Public methods of a signature are those that surface.** -/
theorem Reachable.mem_publicMethods_iff (hr : r.Reachable) {t : TypeId} {o : Overload} :
    (∃ m ∈ r.publicMethods t, m.name = o.name ∧ m.params = o.params) ↔ r.Surfaces t o := by
  constructor
  · rintro ⟨m, hm, hname, hparams⟩
    obtain ⟨hmethod, hpublic⟩ := List.mem_filter.1 hm
    obtain ⟨howner, d, hd, hmd, -⟩ := hr.exists_find?_of_mem_methods hmethod
    have hdeclared : r.Redeclares m.owner o := ⟨d, hd, m, hmd, hpublic, hname, hparams⟩
    refine ⟨m.owner, howner, hdeclared, fun e he hconceals => ?_⟩
    have hne : m.owner ≠ e := by
      rintro rfl
      exact hr.not_conceals hdeclared hconceals
    refine (visitedBefore_or howner hne).resolve_right fun hbefore => ?_
    obtain ⟨d', hd', n, hn, -, hnname, hnparams⟩ := hconceals
    apply hr.hidingKey_ne_of_visitedBefore hmethod hd' hn hbefore
    rw [Member.hidingKey, Member.hidingKey, hnname, hnparams, hname, hparams]
  · rintro ⟨e, he, ⟨d, hd, n, hn, hpublic, hnname, hnparams⟩, hfirst⟩
    have hvisited : n ∈ (r.lineage t).flatMap TypeDecl.methods :=
      List.mem_flatMap.2 ⟨d, List.mem_filterMap.2 ⟨e, he, hd⟩, hn⟩
    -- the method that is kept of this signature is public, as else `n` would be the first
    obtain ⟨m, hm, hkey⟩ := exists_mem_distinctOn Member.hidingKey hvisited
    obtain ⟨howner, d', hd', hmd, hmname⟩ := hr.exists_find?_of_mem_methods hm
    have hnonempty := (hr.owner_eq hd (List.mem_append_right _ hn)).2
    obtain ⟨hname, hparams⟩ := (Member.hidingKey_eq_iff hmname hnonempty).1 hkey
    refine ⟨m, List.mem_filter.2 ⟨hm, ?_⟩, hname.trans hnname, hparams.trans hnparams⟩
    cases hmpublic : m.isPublic with
    | true => rfl
    | false =>
      have hconceals : r.Conceals m.owner o :=
        ⟨d', hd', m, hmd, hmpublic, hname.trans hnname, hparams.trans hnparams⟩
      have hbefore := hfirst m.owner howner hconceals
      exact absurd hkey.symm (hr.hidingKey_ne_of_visitedBefore hm hd hn hbefore)

/-! ## Catalogued signatures -/

/-- **What the catalogue of a public type offers:** what one of its public constructors is, and what
surfaces among the methods on the way up. -/
theorem Reachable.offers_iff (hr : r.Reachable) {t : TypeId} (ht : r.isExposed t)
    {settings : Settings} {cat : Catalogue} (hcat : r.catalogue settings t = .ok cat)
    {o : Overload} : cat.Offers o ↔
      (∃ c ∈ r.publicConstructors t, c.name = o.name ∧ c.params = o.params) ∨ r.Surfaces t o := by
  obtain ⟨d, hd⟩ := exists_find?_of_catalogue hcat
  rw [isExposed_of_find? hd] at ht
  rw [← hr.mem_publicMethods_iff, Catalogue.Offers, entries_of_catalogue hcat,
    callableMembers_eq hd (.inr ht)]
  simp only [mem_distinctOn_id]
  constructor
  · rintro ⟨e, he, hname, hparams⟩
    obtain ⟨m, hm, rfl⟩ := List.mem_map.1 he
    exact (List.mem_append.1 hm).imp (⟨m, ·, hname, hparams⟩) (⟨m, ·, hname, hparams⟩)
  · rintro (⟨m, hm, hname, hparams⟩ | ⟨m, hm, hname, hparams⟩)
    · exact ⟨.ofMember m, List.mem_map_of_mem (List.mem_append_left _ hm), hname, hparams⟩
    · exact ⟨.ofMember m, List.mem_map_of_mem (List.mem_append_right _ hm), hname, hparams⟩

/-- Among classes what is concealed before it is declared is concealed by a subtype. -/
theorem withdrawn_of_isClass (hok : r.problems = []) {t : TypeId} {d : TypeDecl}
    (hd : r.find? t = some d) {o : Overload} (ho : o.declaring ∈ t :: r.ancestors t) {e : TypeId}
    (he : e ∈ t :: r.ancestors t) (hconceals : r.Conceals e o)
    (hbefore : r.VisitedBefore t e o.declaring)
    (hoclass : (r.find? o.declaring).any TypeDecl.isClass)
    (heclass : (r.find? e).any TypeDecl.isClass) : r.Withdrawn t o := by
  have hne : e ≠ o.declaring := by
    rintro rfl
    exact Nat.lt_irrefl _ hbefore
  refine ⟨e, he, ?_, hconceals⟩
  refine (mem_ancestors_or_of_isClass hok hd he ho hne heclass hoclass).resolve_right fun hsub => ?_
  exact absurd hbefore (Nat.lt_asymm (visitedBefore_of_isClass hok hd ho hsub heclass))

/-- **When a public method is offered.**  In a registry without problems, for a public method that is
declared on the way up from a public type with a catalogue: just when a public declaration of its
signature is visited before all that are not public, constructors of the type apart.  If it is
declared by a class, and only classes conceal it, then it is missing only if a subtype of this class
conceals it. -/
theorem Reachable.offers_or_withdrawn (hr : r.Reachable) (hok : r.problems = []) {t : TypeId}
    (ht : r.isExposed t) {settings : Settings} {cat : Catalogue}
    (hcat : r.catalogue settings t = .ok cat) {u : TypeId} (hu : u ∈ t :: r.ancestors t)
    {d : TypeDecl} (hd : r.find? u = some d) {m : Member} (hm : m ∈ d.methods)
    (hpublic : m.isPublic) :
    (cat.Offers (.ofMember m) ↔
        (∃ c ∈ r.publicConstructors t, c.name = m.name ∧ c.params = m.params) ∨
          r.Surfaces t (.ofMember m)) ∧
      ((r.find? u).any TypeDecl.isClass →
        (∀ e ∈ t :: r.ancestors t, r.Conceals e (.ofMember m) →
          (r.find? e).any TypeDecl.isClass) →
        cat.Offers (.ofMember m) ∨ r.Withdrawn t (.ofMember m)) := by
  have hiff := hr.offers_iff ht hcat (o := .ofMember m)
  refine ⟨hiff, fun hclass hall => ?_⟩
  obtain ⟨rfl, -⟩ := hr.owner_eq hd (List.mem_append_right _ hm)
  have hdeclared : r.Redeclares m.owner (.ofMember m) := ⟨d, hd, m, hm, hpublic, rfl, rfl⟩
  by_cases hsurfaces : r.Surfaces t (.ofMember m)
  · exact .inl (hiff.2 (.inr hsurfaces))
  · obtain ⟨e, he, hconceals, hbefore⟩ := hr.exists_conceals_before hu hdeclared hsurfaces
    obtain ⟨dt, hdt⟩ := exists_find?_of_catalogue hcat
    exact .inr (withdrawn_of_isClass hok hdt hu he hconceals hbefore hclass (hall e he hconceals))

/-- Cats can meet what animals can meet, but the public method `feed` of animals is withdrawn, as
`Cat` declares it for itself only. -/
theorem offers_or_withdrawn_sample : ∃ cat, sample.catalogue default (.ofName "Cat") = .ok cat ∧
    ∃ d, sample.find? (.ofName "Animal") = some d ∧
      (∃ m ∈ d.methods, m.name = some "meet" ∧ m.isPublic ∧ cat.Offers (.ofMember m)) ∧
      ∃ m ∈ d.methods, m.name = some "feed" ∧ m.isPublic ∧ ¬cat.Offers (.ofMember m) ∧
        sample.Withdrawn (.ofName "Cat") (.ofMember m) := by
  obtain ⟨cat, hcat⟩ :=
    exists_eq_ok (x := sample.catalogue default (.ofName "Cat")) (by decide +kernel)
  let d := TypeDecl.ofClass
    (((ClassDecl.named "Animal").addMethod "meet" [.ofName "Animal"]).addMethod "feed" [])
  have hd : sample.find? (.ofName "Animal") = some d := by decide +kernel
  have hclaim := fun {m : Member} => @Reachable.offers_or_withdrawn sample
    regular_sample.reachable (by decide +kernel) (.ofName "Cat") (by decide +kernel) default cat
    hcat (.ofName "Animal") (by decide +kernel) d hd m
  let meet := Member.method (.ofName "Animal") "meet" [.ofName "Animal"]
  let feed := Member.method (.ofName "Animal") "feed" []
  have hmeet := hclaim (m := meet) (by decide +kernel) rfl
  have hfeed := hclaim (m := feed) (by decide +kernel) rfl
  have hlost : ¬cat.Offers (.ofMember feed) := by
    rw [hfeed.1]
    decide +kernel
  refine ⟨cat, hcat, d, hd, ⟨meet, by decide +kernel, rfl, rfl, hmeet.1.2 (.inr ?_)⟩, feed,
    by decide +kernel, rfl, rfl, hlost, ?_⟩
  · decide +kernel
  · exact (hfeed.2 (by decide +kernel) (by decide +kernel)).resolve_left hlost

/-! ## Outranked by a stranger -/

/-- Dogs are animals and named beings.  Animals have a private method of the signature in which named
beings declare how to meet them. -/
def outranked : Registry :=
  let animal := TypeId.ofName "Animal"
  let named := TypeId.ofName "Named"
  let meet : Member := { Member.method animal "meet" [named] with visibility := .owner }
  (primitives.applyAll [
    .decl (.ofClass { ClassDecl.named "Dog" with base? := some animal, interfaces := [named] }),
    .decl (.ofClass ((ClassDecl.named "Animal").addMember meet)),
    .decl (.ofInterface ((InterfaceDecl.named "Named").addMethod "meet" [named]))]).2

/-- **A public method may be missing though no subtype conceals it.**  Dogs do not have the method of
named beings, as that of animals comes first and is private.  Animals are no named beings. -/
theorem not_offers_outranked : outranked.Reachable ∧ outranked.problems = [] ∧
    outranked.isExposed (.ofName "Dog") ∧
    .ofName "Named" ∈ outranked.ancestors (.ofName "Dog") ∧
    .ofName "Named" ∉ outranked.ancestors (.ofName "Animal") ∧ ∃ cat,
      outranked.catalogue default (.ofName "Dog") = .ok cat ∧ ∃ d,
        outranked.find? (.ofName "Named") = some d ∧ ∃ m ∈ d.methods, m.isPublic ∧
          ¬cat.Offers (.ofMember m) ∧ outranked.Conceals (.ofName "Animal") (.ofMember m) ∧
          ¬outranked.Withdrawn (.ofName "Dog") (.ofMember m) := by
  have hr : outranked.Reachable :=
    Regular.reachable (regular_primitives.applyAll (by decide +kernel))
  obtain ⟨cat, hcat⟩ :=
    exists_eq_ok (x := outranked.catalogue default (.ofName "Dog")) (by decide +kernel)
  let d := TypeDecl.ofInterface ((InterfaceDecl.named "Named").addMethod "meet" [.ofName "Named"])
  let m := Member.method (.ofName "Named") "meet" [.ofName "Named"]
  have hlost : ¬cat.Offers (.ofMember m) := by
    rw [Catalogue.Offers, entries_of_catalogue hcat]
    decide +kernel
  refine ⟨hr, ?_, ?_, ?_, ?_, cat, hcat, d, ?_, m, ?_, rfl, hlost, ?_, ?_⟩ <;> decide +kernel

end Registry
end CallResolution
