/-
# What the check of members guarantees

A declaration passes the check of its members just when they are its own, have names
if they are methods, and differ in signature, constructors and methods taken together
(`memberError?_eq_none_iff`).
-/

import CallResolution.Proofs.Registry.Reachable

namespace CallResolution

/-- The check goes through a list of members just when each is owned by `owner`, none has an empty
name, and each differs in signature from those before it. -/
theorem memberFault?_eq_none_iff {owner : TypeId} {earlier members : List Member} :
    memberFault? owner earlier members = none ↔
      (∀ m ∈ members, m.owner = owner ∧ m.name ≠ some "") ∧
        (∀ m ∈ members, ∀ e ∈ earlier, e.signature ≠ m.signature) ∧
        members.Pairwise fun m n => m.signature ≠ n.signature := by
  induction members generalizing earlier with
  | nil => simp [memberFault?]
  | cons m members ih =>
    rw [memberFault?]
    split
    · next h => simp [h]
    · next howner =>
      split
      · next h => simp [h]
      · next hname =>
        split
        · next h =>
          obtain ⟨e, he, hem⟩ := List.any_eq_true.1 h
          rw [decide_eq_true_eq] at hem
          constructor
          · intro h
            cases h
          · rintro ⟨-, hearlier, -⟩
            exact absurd hem (hearlier m List.mem_cons_self e he)
        · next hnew =>
          have hnew' : ∀ e ∈ earlier, e.signature ≠ m.signature := by simpa using hnew
          rw [ih, List.pairwise_cons, List.forall_mem_cons, List.forall_mem_cons]
          constructor
          · rintro ⟨hown, hearlier, hpair⟩
            refine ⟨⟨⟨not_not.1 howner, hname⟩, hown⟩, ⟨hnew', fun n hn e he => ?_⟩, fun n hn => ?_,
              hpair⟩
            · exact hearlier n hn e (List.mem_append_left _ he)
            · exact hearlier n hn m (List.mem_append_right _ (List.mem_singleton_self m))
          · rintro ⟨⟨-, hown⟩, ⟨-, hearlier⟩, hm, hpair⟩
            refine ⟨hown, fun n hn e he => ?_, hpair⟩
            rcases List.mem_append.1 he with he | he
            · exact hearlier n hn e he
            · exact List.mem_singleton.1 he ▸ hm n hn

theorem TypeDecl.memberError?_eq_none_iff {d : TypeDecl} : d.memberError? = none ↔
    (∀ m ∈ d.members, m.owner = d.id ∧ m.name ≠ some "") ∧
      (d.members.map Member.signature).Nodup := by
  rw [memberError?, Option.map_eq_none_iff, memberFault?_eq_none_iff, List.Nodup,
    List.pairwise_map]
  simp

namespace Registry

/-- No two members of a stored declaration have the same signature. -/
theorem Reachable.nodup_signatures {r : Registry} (hr : r.Reachable) {t : TypeId} {d : TypeDecl}
    (hd : r.find? t = some d) : (d.members.map Member.signature).Nodup :=
  (TypeDecl.memberError?_eq_none_iff.1 (hr.memberError? hd)).2

/-- The members of a stored declaration are owned by its type, and none has an empty name. -/
theorem Reachable.owner_eq {r : Registry} (hr : r.Reachable) {t : TypeId} {d : TypeDecl}
    (hd : r.find? t = some d) {m : Member} (hm : m ∈ d.members) : m.owner = t ∧ m.name ≠ some "" := by
  have h := (TypeDecl.memberError?_eq_none_iff.1 (hr.memberError? hd)).1 m hm
  rwa [id_of_find? hd] at h

/-- The methods that some types declare are owned by these types. -/
theorem Reachable.owner_mem {r : Registry} (hr : r.Reachable) {ts : List TypeId} {m : Member}
    (hm : m ∈ (ts.filterMap r.find?).flatMap TypeDecl.methods) : m.owner ∈ ts := by
  obtain ⟨d, hd, hmd⟩ := List.mem_flatMap.1 hm
  obtain ⟨u, hu, hfind⟩ := List.mem_filterMap.1 hd
  rwa [(hr.owner_eq hfind (List.mem_append_right _ hmd)).1]

/-- The constructors that types declare are constructors, and the methods are methods. -/
def MembersByKind (r : Registry) : Prop :=
  ∀ t d, r.find? t = some d → (∀ m ∈ d.constructors, m.name = none) ∧ ∀ m ∈ d.methods, m.name ≠ none

/-- What holds of all that a registry lists holds of all that it finds. -/
theorem forall_find? {r : Registry} {p : TypeDecl → Prop} (h : ∀ e ∈ r.decls.toList, p e.2)
    (t : TypeId) (d : TypeDecl) (hd : r.find? t = some d) : p d :=
  h (t, d) (Std.TreeMap.mem_toList_iff_getElem?_eq_some.2 hd)

end Registry
end CallResolution
