/-
# Which declarations a registry takes

A registry takes a declaration just when it `Admits` it: the identity and the name are free, each
direct supertype that is registered already is of a kind that the declaration may extend, and the
members are its own, have names if they are methods, and differ in name or parameters.  The checks
stop at the first thing that is wrong; which one that is does not matter for the answer
(`rejection?_eq_none_iff_admits`).

What is taken is found under its identity and its name, its edges come after all others, and nothing
else that is looked up changes (`Reachable.records`).  This last needs that the registry was made by
registrations: a name that led to an identity not yet registered would come to life with it.  What is
not taken leaves the registry as it was (`Reachable.register_iff_admits`).
-/

import CallResolution.Proofs.Registry.Members
import CallResolution.Proofs.Registry.Names
import CallResolution.Proofs.Registry.Validation
import CallResolution.Registry.InPlace

namespace CallResolution

/-- Whether `d` can have `s` as a direct supertype: a class its base if it is a class, and
interfaces; an interface other interfaces; nothing else has supertypes. -/
def TypeDecl.MayExtend (d s : TypeDecl) : Prop :=
  match d with
  | .ofClass c => if c.base? = some s.id then s.isClass else s.isInterface
  | .ofInterface _ => s.isInterface
  | .ofPrimitive _ | .ofArray _ => False

theorem TypeDecl.supertypeError?_eq_none_iff {d s : TypeDecl} :
    d.supertypeError? s = none ↔ d.MayExtend s := by
  cases d with
  | ofClass c =>
    rw [supertypeError?_ofClass, MayExtend]
    split <;> rfl
  | ofInterface i => exact supertypeError?_ofInterface
  | ofPrimitive _ | ofArray _ =>
    refine ⟨fun h => ?_, False.elim⟩
    cases h

theorem Member.signature_eq_iff {m n : Member} :
    m.signature = n.signature ↔ m.name = n.name ∧ m.params = n.params := by
  rw [signature, signature, Signature.mk.injEq]

namespace Registry

variable {r s : Registry} {d : TypeDecl}

/-- What a declaration has to meet to be registered. -/
structure Admits (r : Registry) (d : TypeDecl) : Prop where
  idFree : r.find? d.id = none
  nameFree : r.idOf? d.name = none
  kinds : ∀ t ∈ d.parents, ∀ s, r.find? t = some s → d.MayExtend s
  owners : ∀ m ∈ d.members, m.owner = d.id
  names : ∀ m ∈ d.members, m.name ≠ some ""
  signatures : d.members.Pairwise fun m n => ¬(m.name = n.name ∧ m.params = n.params)

/-- `s` is `r` with the declaration in all its stores, and nothing else is different. -/
structure Records (r : Registry) (d : TypeDecl) (s : Registry) : Prop where
  find?_self : s.find? d.id = some d
  idOf?_self : s.idOf? d.name = some d.id
  findNamed?_self : s.findNamed? d.name = some d
  find?_of_ne {t : TypeId} : t ≠ d.id → s.find? t = r.find? t
  idOf?_of_ne {name : String} : name ≠ d.name → s.idOf? name = r.idOf? name
  findNamed?_of_ne {name : String} : name ≠ d.name → s.findNamed? name = r.findNamed? name
  edges : s.hierarchy.edges = r.hierarchy.edges ++ d.parents.map (d.id, ·)

/-- **The checks pass what is admitted.** -/
theorem rejection?_eq_none_iff_admits : r.rejection? d = none ↔ r.Admits d := by
  have hsignatures : (d.members.map Member.signature).Nodup ↔
      d.members.Pairwise fun m n => ¬(m.name = n.name ∧ m.params = n.params) := by
    rw [List.Nodup, List.pairwise_map]
    simp only [ne_eq, Member.signature_eq_iff]
  simp only [rejection?_eq_none_iff, TypeDecl.supertypeError?_eq_none_iff,
    TypeDecl.memberError?_eq_none_iff, hsignatures]
  constructor
  · rintro ⟨hid, hname, hkinds, hmembers, hpairwise⟩
    exact ⟨hid, hname, hkinds, fun m hm => (hmembers m hm).1, fun m hm => (hmembers m hm).2,
      hpairwise⟩
  · intro h
    exact ⟨h.idFree, h.nameFree, h.kinds, fun m hm => ⟨h.owners m hm, h.names m hm⟩, h.signatures⟩

/-- In a registry made by registrations no name leads to an identity that is free. -/
theorem Reachable.idOf?_ne (hr : r.Reachable) {t : TypeId} (hfree : r.find? t = none)
    (name : String) : r.idOf? name ≠ some t := by
  intro h
  obtain ⟨e, he, -⟩ := hr.find?_of_idOf? h
  rw [hfree] at he
  cases he

/-- **What a declaration that is taken changes.** -/
theorem Reachable.records (hr : r.Reachable) (h : r.declare d = .ok s) : r.Records d s := by
  have g := gains_of_declare h
  have hfind : ∀ {t : TypeId}, t ≠ d.id → s.find? t = r.find? t := fun ht => by
    rw [g.find?, if_neg ht.symm]
  have hidOf : ∀ {name : String}, name ≠ d.name → s.idOf? name = r.idOf? name := fun hname => by
    rw [g.idOf?, if_neg hname.symm]
  have hedges : s.hierarchy.edges = r.hierarchy.edges ++ d.parents.map (d.id, ·) := by
    rw [(declare_eq_ok.1 h).2]
    exact Hierarchy.edges_addParents _ _ _
  refine ⟨g.find?_self, by rw [g.idOf?, if_pos rfl], g.findNamed?_self, hfind, hidOf,
    fun {name} hname => ?_, hedges⟩
  rw [findNamed?, findNamed?, hidOf hname]
  refine Option.bind_congr fun t ht => hfind ?_
  rintro rfl
  exact hr.idOf?_ne g.free name ht

/-- **A registry takes just what it admits, as a whole or not at all.**  In any registry that
registrations lead to, registering a declaration gives its identity just when the declaration is
admitted.  Whenever it gives an identity, this is that of the declaration, which is then found under
its identity and its name; all other identities and names lead where they led before, and the edges
of the declaration follow the old ones in the order of its supertypes.  Whenever it fails, the
registry with all its stores is what it was. -/
theorem Reachable.register_iff_admits (hr : r.Reachable) (d : TypeDecl) :
    ((r.register d).1 = .ok d.id ↔ r.Admits d) ∧
      (∀ t, (r.register d).1 = .ok t → t = d.id ∧ r.Records d (r.register d).2) ∧
      ∀ e, (r.register d).1 = .error e → (r.register d).2 = r := by
  rw [← rejection?_eq_none_iff_admits, register_eq]
  cases h : r.declare d with
  | ok s =>
    refine ⟨iff_of_true rfl (declare_eq_ok.1 h).1, fun t ht => ⟨(Except.ok.inj ht).symm, ?_⟩,
      fun e he => ?_⟩
    · exact hr.records h
    · cases he
  | error e =>
    have hrej : r.rejection? d ≠ none := fun hnone => by
      rw [declare, hnone] at h
      cases h
    refine ⟨iff_of_false (fun hok => ?_) hrej, fun t ht => ?_, fun _ _ => rfl⟩
    · cases hok
    · cases ht

/-- A dog that has a name, and one whose base is an interface.  The sample takes the first; the
second it refuses, and is what it was. -/
theorem register_sample :
    let dog : ClassDecl := { (ClassDecl.named "Dog").addMethod "meet" [.ofName "Dog"] with
      base? := some (.ofName "Animal"), interfaces := [.ofName "Named", .ofName "Pet"] }
    let stray : ClassDecl := { ClassDecl.named "Stray" with base? := some (.ofName "Named") }
    ((sample.register (.ofClass dog)).1 = .ok (.ofName "Dog") ∧
      (sample.register (.ofClass dog)).2.findNamed? "Dog" = some (.ofClass dog) ∧
      (sample.register (.ofClass dog)).2.findNamed? "Cat" = sample.findNamed? "Cat" ∧
      (sample.register (.ofClass dog)).2.hierarchy.edges = sample.hierarchy.edges ++
        [(.ofName "Dog", .ofName "Animal"), (.ofName "Dog", .ofName "Named"),
          (.ofName "Dog", .ofName "Pet")]) ∧
    ∃ e, (sample.register (.ofClass stray)).1 = .error e ∧
      (sample.register (.ofClass stray)).2 = sample := by
  intro dog stray
  have hr := regular_sample.reachable
  constructor
  · obtain ⟨haccepts, heffect, -⟩ := hr.register_iff_admits (.ofClass dog)
    have hok := haccepts.2 (rejection?_eq_none_iff_admits.1 (by decide +kernel))
    obtain ⟨-, hrecords⟩ := heffect _ hok
    exact ⟨hok, hrecords.findNamed?_self, hrecords.findNamed?_of_ne (by decide), hrecords.edges⟩
  · obtain ⟨haccepts, heffect, hatomic⟩ := hr.register_iff_admits (.ofClass stray)
    have hrefused : sample.rejection? (.ofClass stray) ≠ none := by decide +kernel
    cases h : (sample.register (.ofClass stray)).1 with
    | error e => exact ⟨e, rfl, hatomic e h⟩
    | ok t =>
      obtain rfl := (heffect t h).1
      exact absurd (rejection?_eq_none_iff_admits.2 (haccepts.1 h)) hrefused

end Registry
end CallResolution
