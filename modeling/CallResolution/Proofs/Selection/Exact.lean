/-
# Exact overloads

An overload of exactly the argument types is called without a look at the others that accept the
arguments.  That is a shortcut and no rule of its own: what accepts the arguments is what the exact
overload is as specific as, so among these it is the most specific one, and in a registry without
problems nothing else is (`Regular.mostSpecific_eq_singleton`), as long as parameters tell the
candidates apart.  In the bucket of a catalogue they do, whether or not methods were redirected
(`Reachable.nodup_params`).  The running set of the general search ends with the exact overload
therefore, and so does the choice (`Regular.choose_exact`).
-/

import CallResolution.Proofs.Catalogue.Integrity
import CallResolution.Proofs.Catalogue.Redirection
import CallResolution.Proofs.Conversion.Exactness
import CallResolution.Proofs.Selection.Ambiguity

namespace CallResolution

/-- Arguments are of exactly the types of one parameter list at most. -/
theorem Overload.params_eq_of_asArgs {o o' : Overload} (h : o.asArgs = o'.asArgs) :
    o.params = o'.params :=
  List.map_injective_iff.2 (fun _ _ => Arg.ofType.inj) h

/-- In a bucket are the entries of its name. -/
theorem Catalogue.members_handlesOf (cat : Catalogue) (name : Option String) :
    cat.members (cat.handlesOf name) = cat.entries.filter (·.name = name) := by
  have hfind : ∀ o ∈ cat.entries.filter (·.name = name), cat.find? o.handle = some o := fun o ho =>
    find?_eq_some_iff.2 ⟨(List.mem_filter.1 ho).1, rfl⟩
  rw [members, handlesOf, List.filterMap_map]
  exact (List.filterMap_congr hfind).trans List.filterMap_some

namespace Registry

variable {r : Registry}

/-- No two overloads of one name in a catalogue have the same parameters. -/
theorem Reachable.nodup_params (hr : r.Reachable) (hkinds : r.MembersByKind) {settings : Settings}
    {t : TypeId} {cat : Catalogue} (hcat : r.catalogue settings t = .ok cat)
    (name : Option String) :
    ((cat.members (cat.handlesOf name)).map Overload.params).Nodup := by
  obtain ⟨d, hd⟩ := exists_find?_of_catalogue hcat
  have hsigs : cat.entries.Pairwise fun o o' => o.name = o'.name → o.params ≠ o'.params := by
    have hnodup := nodup_callableMembers hr hkinds settings hd
    rw [hr.entries_eq hkinds hcat, List.pairwise_map]
    rw [List.Nodup, List.pairwise_map] at hnodup
    refine hnodup.imp fun {m n} hmn hname hparams => hmn ?_
    exact Signature.mk.injEq .. ▸ ⟨hname, hparams⟩
  rw [cat.members_handlesOf, List.Nodup, List.pairwise_map]
  refine (hsigs.filter _).imp_of_mem fun {o o'} ho ho' hne => hne ?_
  rw [of_decide_eq_true (List.mem_filter.1 ho).2, of_decide_eq_true (List.mem_filter.1 ho').2]

/-- **The exact overload alone is as specific as all that accept the arguments.** -/
theorem Regular.mostSpecific_eq_singleton (hr : r.Regular) (hok : r.problems = []) (rules : Rules)
    {os : List Overload} (hparams : (os.map Overload.params).Nodup) {args : List Arg} {o : Overload}
    (ho : o ∈ os) (hexact : o.takesExactly args) :
    r.mostSpecific rules (r.applicable rules args os) = [o] := by
  rw [Overload.takesExactly_iff] at hexact
  subst hexact
  have happ : o ∈ r.applicable rules o.asArgs os :=
    List.mem_filter.2 ⟨ho, hr.isAsSpecific_refl rules o⟩
  -- to accept the parameter types of `o` is to be no more specific than `o`
  have hall : ∀ o' ∈ r.applicable rules o.asArgs os, r.isAsSpecific rules o o' := fun o' ho' =>
    (List.mem_filter.1 ho').2
  have hmem : ∀ o', o' ∈ r.mostSpecific rules (r.applicable rules o.asArgs os) ↔ o' = o := by
    intro o'
    rw [mem_mostSpecific]
    constructor
    · rintro ⟨ho', hleast⟩
      have hsame := hr.params_eq_of_isAsSpecific hok (hleast o happ) (hall o' ho')
      exact List.inj_on_of_nodup_map hparams (List.mem_filter.1 ho').1 ho hsame
    · rintro rfl
      exact ⟨happ, hall⟩
  have hnodup : (r.mostSpecific rules (r.applicable rules o.asArgs os)).Nodup :=
    (hparams.of_map.filter _).filter _
  refine List.perm_singleton.1
    ((List.perm_ext_iff_of_nodup hnodup (List.nodup_singleton o)).2 fun o' => ?_)
  rw [hmem, List.mem_singleton]

/-- The first exact overload is the only one. -/
theorem find?_takesExactly {os : List Overload} (hparams : (os.map Overload.params).Nodup)
    {args : List Arg} {o : Overload} (ho : o ∈ os) (hexact : o.takesExactly args) :
    os.find? (·.takesExactly args) = some o := by
  have hsome : (os.find? (·.takesExactly args)).isSome := List.find?_isSome.2 ⟨o, ho, hexact⟩
  obtain ⟨o', ho'⟩ := Option.isSome_iff_exists.1 hsome
  have hexact' := List.find?_some ho'
  rw [Overload.takesExactly_iff] at hexact hexact'
  have hsame := Overload.params_eq_of_asArgs (hexact'.trans hexact.symm)
  rw [ho', List.inj_on_of_nodup_map hparams (List.mem_of_find?_eq_some ho') ho hsame]

/-- **Exact overloads need no rule of their own.**  In a registry without problems that plain
registrations lead to, for a catalogue of it and a method name, if an overload of the bucket is of
exactly the argument types, then the general search, over all of the bucket that accept the
arguments, ends with this overload alone; it is what is chosen from these, and what the call gives. -/
theorem Regular.choose_exact (hr : r.Regular) (hok : r.problems = []) (hkinds : r.MembersByKind)
    {settings : Settings} {t : TypeId} {cat : Catalogue} (hcat : r.catalogue settings t = .ok cat)
    {name : String} {bucket : List Handle} (hbucket : cat.methods? name = some bucket)
    (rules : Rules) {args : List Arg} {o : Overload} (ho : o ∈ cat.members bucket)
    (hexact : o.takesExactly args) :
    let applicable := r.applicable rules args (cat.members bucket)
    r.front rules applicable = [o] ∧ (∀ call, r.choose rules call applicable = .ok o) ∧
      r.selectMethod rules cat name args = .ok o := by
  intro applicable
  have hselect := selectMethod_of_methods? hbucket r rules args
  obtain ⟨hne, rfl⟩ := Catalogue.methods?_eq_some_iff.1 hbucket
  have hparams := hr.reachable.nodup_params hkinds hcat (some name)
  have hbest : r.mostSpecific rules applicable = [o] :=
    hr.mostSpecific_eq_singleton hok rules hparams ho hexact
  have hlast : (r.mostSpecific rules applicable).getLast? = some o := by rw [hbest]; rfl
  have happ : applicable ≠ [] :=
    List.ne_nil_of_mem (mem_mostSpecific.1 (hbest ▸ List.mem_singleton_self o)).1
  refine ⟨?_, fun call => ?_, ?_⟩
  · exact Selection.front_eq_singleton (hr.isAsSpecific_refl rules)
      (fun _ _ _ => hr.isAsSpecific_trans) hlast
  · rw [hr.choose_eq, if_neg happ, hlast]
  · rw [hselect, hr.select_eq_outcome rules fun _ => Catalogue.mem_handles_of_mem_handlesOf,
      outcome, if_neg hne, find?_takesExactly hparams ho hexact]

/-- Of the three ways to meet that accept a cat, the one for cats is exact. -/
theorem choose_exact_sample : ∃ cat, sample.catalogue default (.ofName "Cat") = .ok cat ∧
    ∃ bucket, cat.methods? "meet" = some bucket ∧ ∃ o ∈ cat.members bucket,
      o.params = [.ofName "Cat"] ∧
      (sample.applicable .strict [.ofType (.ofName "Cat")] (cat.members bucket)).length = 3 ∧
      sample.front .strict
        (sample.applicable .strict [.ofType (.ofName "Cat")] (cat.members bucket)) = [o] := by
  obtain ⟨cat, hcat⟩ :=
    exists_eq_ok (x := sample.catalogue default (.ofName "Cat")) (by decide +kernel)
  have hentries := entries_of_catalogue hcat
  have hbucket : cat.methods? "meet" = some (cat.handlesOf (some "meet")) := by
    refine Catalogue.methods?_eq_some_iff.2 ⟨?_, rfl⟩
    rw [Catalogue.handlesOf, hentries]
    decide +kernel
  let o := Overload.ofMember (.method (.ofName "Cat") "meet" [.ofName "Cat"])
  have ho : o ∈ cat.members (cat.handlesOf (some "meet")) := by
    rw [cat.members_handlesOf, hentries]
    decide +kernel
  refine ⟨cat, hcat, _, hbucket, o, ho, rfl, ?_, ?_⟩
  · rw [cat.members_handlesOf, hentries]
    decide +kernel
  · exact (regular_sample.choose_exact (by decide +kernel) membersByKind_sample hcat hbucket .strict ho
      (by decide +kernel)).1

end Registry
end CallResolution
