/-
# Overloads called with their own parameters

A catalogued overload takes exactly its own parameter types, and no other of its bucket does
(`Reachable.nodup_params`).  A call with these therefore selects it (`Reachable.select_own`).

The call is answered if it gets to the overload.  Those before it in the bucket are asked first if
they accept the arguments, although nothing comes of it when they do, and a search that goes on for
ever there keeps the call from its answer (`Reachable.selectAnswer?_own`).  Where all searches end,
every call is answered (`selectAnswer?_of_terminates`).
-/

import CallResolution.Answered
import CallResolution.Proofs.Selection.Exact

namespace CallResolution

/-- Comparisons that all end do so also when candidates are considered. -/
theorem Selection.frontEnds_of_forall {α : Type} {better ends : α → α → Bool}
    (h : ∀ a b, ends a b) (front candidates : List α) : frontEnds better ends front candidates := by
  induction candidates generalizing front with
  | nil => rfl
  | cons candidate candidates ih =>
    rw [frontEnds, ih, Bool.and_true, considerEnds]
    split
    · rfl
    · rw [h, h, Bool.and_true]

/-- A bucket with overloads is not empty. -/
theorem Catalogue.ne_nil_of_mem_members {cat : Catalogue} {bucket : List Handle} {o : Overload}
    (ho : o ∈ cat.members bucket) : bucket ≠ [] := by
  rintro rfl
  cases ho

namespace Registry

variable {r : Registry}

/-! ## Calls that end -/

/-- Places are looked at until one does not convert, and all searches before that have to end. -/
theorem placesEnd_iff {rules : Rules} {places : List (TypeId × Arg)} : r.placesEnd rules places ↔
    ∀ before formal t after, places = before ++ (formal, .ofType t) :: after →
      (∀ place ∈ before, r.converts rules place.2 place.1) → r.Terminates rules t formal := by
  induction places with
  | nil => simp [placesEnd]
  | cons place places ih =>
    obtain ⟨formal, actual⟩ := place
    rw [placesEnd, Bool.and_eq_true, Bool.or_eq_true, Bool.not_eq_true', ih]
    constructor
    · rintro ⟨hends, hrest⟩ before formal' t after hsplit hconv
      cases before with
      | nil =>
        obtain ⟨hplace, -⟩ := List.cons.inj hsplit
        obtain ⟨rfl, rfl⟩ := Prod.mk.inj hplace
        exact searchEnds_iff.1 hends
      | cons first before =>
        obtain ⟨rfl, htail⟩ := List.cons.inj hsplit
        obtain ⟨hfirst, hconv⟩ := List.forall_mem_cons.1 hconv
        have hrest := hrest.resolve_left (by simp [hfirst])
        exact hrest before formal' t after htail hconv
    · intro h
      constructor
      · cases actual with
        | null => rfl
        | ofType t => exact searchEnds_iff.2 (h [] formal t places rfl (by simp))
      · by_cases hconv : r.converts rules actual formal
        · refine .inr fun before formal' t after hsplit hbefore => ?_
          refine h ((formal, actual) :: before) formal' t after (by rw [hsplit]; rfl) ?_
          exact List.forall_mem_cons.2 ⟨hconv, hbefore⟩
        · exact .inl (Bool.eq_false_iff.2 hconv)

/-- Arguments that are too many or too few are not looked at. -/
theorem acceptsEnds_iff {rules : Rules} {o : Overload} {args : List Arg} :
    r.acceptsEnds rules o args ↔
      (o.params.length = args.length → r.placesEnd rules (o.params.zip args)) := by
  rw [acceptsEnds, acceptsAllEnds, Bool.or_eq_true, decide_eq_true_eq, ← imp_iff_not_or]

/-- Where all searches end, it always comes out if an overload accepts the arguments. -/
theorem acceptsEnds_of_terminates {rules : Rules} (h : ∀ t u, r.Terminates rules t u) (o : Overload)
    (args : List Arg) : r.acceptsEnds rules o args :=
  acceptsEnds_iff.2 fun _ => placesEnd_iff.2 fun _ _ _ _ _ _ => h _ _

/-- The scan of a bucket asks the overloads before the first exact one if they accept the
arguments. -/
theorem candidatesEnd_eq {rules : Rules} {cat : Catalogue} {args : List Arg} {bucket : List Handle}
    (hb : ∀ h ∈ bucket, h ∈ cat.entries.map Overload.handle) :
    r.candidatesEnd rules cat args bucket =
      ((cat.members bucket).takeWhile (!·.takesExactly args)).all (r.acceptsEnds rules · args) := by
  induction bucket with
  | nil => rfl
  | cons h hs ih =>
    obtain ⟨o, ho⟩ := Catalogue.exists_find?_of_mem (hb h List.mem_cons_self)
    have hmembers : cat.members (h :: hs) = o :: cat.members hs := List.filterMap_cons_some ho
    rw [candidatesEnd, ho, hmembers, List.takeWhile_cons]
    cases hexact : o.takesExactly args with
    | true => simp [hexact]
    | false => simp [hexact, ih fun h hh => hb h (List.mem_cons_of_mem _ hh)]

/-- **Where all searches end, every call is answered**, and by what is selected. -/
theorem selectAnswer?_of_terminates {rules : Rules} (h : ∀ t u, r.Terminates rules t u)
    (cat : Catalogue) (bucket : List Handle) (member : Option String) (args : List Arg) :
    r.selectAnswer? rules cat bucket member args =
      some (r.select rules cat bucket member args) := by
  have hscan : r.candidatesEnd rules cat args bucket := by
    induction bucket with
    | nil => rfl
    | cons handle handles ih =>
      rw [candidatesEnd]
      split
      · rfl
      · next o _ =>
        rw [Bool.or_eq_true, Bool.and_eq_true]
        exact .inr ⟨acceptsEnds_of_terminates h o args, ih⟩
  have hfront (os : List Overload) : r.frontEnds rules os :=
    Selection.frontEnds_of_forall (fun _ _ => acceptsEnds_of_terminates h _ _) [] os
  rw [selectAnswer?, if_pos]
  rw [selectEnds, hscan, Bool.true_and]
  split
  · exact hfront _
  · rfl
  · rfl

/-! ## Calls of a catalogued overload -/

/-- The scan of its bucket ends at an overload that is called with its own parameters. -/
theorem Reachable.candidates_own (hr : r.Reachable) (hkinds : r.MembersByKind) {settings : Settings}
    {t : TypeId} {cat : Catalogue} (hcat : r.catalogue settings t = .ok cat)
    {member : Option String} {o : Overload} (ho : o ∈ cat.members (cat.handlesOf member))
    (rules : Rules) : r.candidates rules cat o.asArgs (cat.handlesOf member) = .ok (.exact o) := by
  rw [candidates_eq fun _ => Catalogue.mem_handles_of_mem_handlesOf,
    find?_takesExactly (hr.nodup_params hkinds hcat member) ho (Overload.takesExactly_iff.2 rfl)]

theorem Reachable.select_own (hr : r.Reachable) (hkinds : r.MembersByKind) {settings : Settings}
    {t : TypeId} {cat : Catalogue} (hcat : r.catalogue settings t = .ok cat)
    {member : Option String} {o : Overload} (ho : o ∈ cat.members (cat.handlesOf member))
    (rules : Rules) : r.select rules cat (cat.handlesOf member) member o.asArgs = .ok o := by
  have hbucket := Catalogue.ne_nil_of_mem_members ho
  have hscan := hr.candidates_own hkinds hcat ho rules
  rw [candidates] at hscan
  rw [select, Selection.select, if_neg (by simpa using hbucket), hscan]

/-- Where parameters tell overloads apart, those before an overload are scanned before a call with
its parameters gets to it, and no others. -/
theorem takeWhile_takesExactly {before after : List Overload} {o : Overload}
    (hparams : ((before ++ o :: after).map Overload.params).Nodup) :
    (before ++ o :: after).takeWhile (!·.takesExactly o.asArgs) = before := by
  rw [List.map_append, List.map_cons, List.nodup_middle, List.nodup_cons] at hparams
  have hexact : o.takesExactly o.asArgs := Overload.takesExactly_iff.2 rfl
  rw [List.takeWhile_append_of_pos, List.takeWhile_cons_of_neg (by simp [hexact]), List.append_nil]
  intro o' ho'
  rw [Bool.not_eq_true', Bool.eq_false_iff, ne_eq, Overload.takesExactly_iff]
  intro hsame
  refine hparams.1 (List.mem_append_left _ (List.mem_map.2 ⟨o', ho', ?_⟩))
  exact Overload.params_eq_of_asArgs hsame

/-- **When a call with the parameters of an overload is answered**: when it comes out for those
before it in the bucket if they accept the arguments. -/
theorem Reachable.selectAnswer?_own (hr : r.Reachable) (hkinds : r.MembersByKind)
    {settings : Settings} {t : TypeId} {cat : Catalogue} (hcat : r.catalogue settings t = .ok cat)
    {member : Option String} {before after : List Overload} {o : Overload}
    (hsplit : cat.members (cat.handlesOf member) = before ++ o :: after) (rules : Rules) :
    r.selectAnswer? rules cat (cat.handlesOf member) member o.asArgs =
      if before.all (r.acceptsEnds rules · o.asArgs) then some (.ok o) else none := by
  have hmem : o ∈ cat.members (cat.handlesOf member) := hsplit ▸ by simp
  have hparams := hr.nodup_params hkinds hcat member
  rw [hsplit] at hparams
  rw [selectAnswer?, selectEnds, candidatesEnd_eq fun _ => Catalogue.mem_handles_of_mem_handlesOf,
    hsplit, takeWhile_takesExactly hparams, hr.candidates_own hkinds hcat hmem,
    hr.select_own hkinds hcat hmem, Bool.and_true]

/-- **Every catalogued overload is what its own parameters select**, wherever the call is answered.
For a catalogue of a registry that registrations lead to, whatever else is in the bucket of a method
or among the constructors: the call with the parameters of an overload gives this overload, and is
answered just when it comes out for the overloads before it if they accept them.  If no two types
contain themselves, as after plain registrations none does, all these calls are answered. -/
theorem Reachable.own_parameters (hr : r.Reachable) (hkinds : r.MembersByKind) {settings : Settings}
    {t : TypeId} {cat : Catalogue} (hcat : r.catalogue settings t = .ok cat) (rules : Rules) :
    (∀ name bucket before o after, cat.methods? name = some bucket →
      cat.members bucket = before ++ o :: after →
        r.selectMethod rules cat name o.asArgs = .ok o ∧
        r.methodAnswer? rules cat name o.asArgs =
          if before.all (r.acceptsEnds rules · o.asArgs) then some (.ok o) else none) ∧
    (∀ before o after, cat.members cat.constructors = before ++ o :: after →
        r.selectConstructor rules cat o.asArgs = .ok o ∧
        r.constructorAnswer? rules cat o.asArgs =
          if before.all (r.acceptsEnds rules · o.asArgs) then some (.ok o) else none) ∧
    ((∀ t u, r.SelfNested t → r.SelfNested u → t = u) →
      (∀ name bucket, cat.methods? name = some bucket → ∀ o ∈ cat.members bucket,
        r.methodAnswer? rules cat name o.asArgs = some (.ok o)) ∧
      ∀ o ∈ cat.members cat.constructors,
        r.constructorAnswer? rules cat o.asArgs = some (.ok o)) := by
  refine ⟨fun name bucket before o after hbucket hsplit => ?_,
    fun before o after hsplit => ⟨?_, hr.selectAnswer?_own hkinds hcat hsplit rules⟩,
    fun hnested => ?_⟩
  · rw [selectMethod_of_methods? hbucket, methodAnswer?, hbucket]
    obtain ⟨-, rfl⟩ := Catalogue.methods?_eq_some_iff.1 hbucket
    exact ⟨hr.select_own hkinds hcat (hsplit ▸ by simp) rules,
      hr.selectAnswer?_own hkinds hcat hsplit rules⟩
  · exact hr.select_own hkinds hcat (hsplit ▸ by simp) rules
  · have hends := forall_terminates_iff.2 hnested rules
    constructor
    · intro name bucket hbucket o ho
      rw [methodAnswer?, hbucket]
      obtain ⟨-, rfl⟩ := Catalogue.methods?_eq_some_iff.1 hbucket
      exact (selectAnswer?_of_terminates hends ..).trans
        (congrArg some (hr.select_own hkinds hcat ho rules))
    · intro o ho
      exact (selectAnswer?_of_terminates hends ..).trans
        (congrArg some (hr.select_own hkinds hcat ho rules))

/-- Each of the two ways to make a cat, and of the three ways to meet one, is what its own
parameters select. -/
theorem own_parameters_sample : ∃ cat, sample.catalogue default (.ofName "Cat") = .ok cat ∧
    ∃ bucket, cat.methods? "meet" = some bucket ∧
      (cat.members bucket).length = 3 ∧ (cat.members cat.constructors).length = 2 ∧
      ∀ rules, (∀ o ∈ cat.members bucket,
          sample.methodAnswer? rules cat "meet" o.asArgs = some (.ok o)) ∧
        ∀ o ∈ cat.members cat.constructors,
          sample.constructorAnswer? rules cat o.asArgs = some (.ok o) := by
  obtain ⟨cat, hcat⟩ :=
    exists_eq_ok (x := sample.catalogue default (.ofName "Cat")) (by decide +kernel)
  have hentries := entries_of_catalogue hcat
  have hways : (cat.members (cat.handlesOf (some "meet"))).length = 3 := by
    rw [cat.members_handlesOf, hentries]
    decide +kernel
  obtain ⟨o, ho⟩ := List.exists_mem_of_length_pos (by omega :
    0 < (cat.members (cat.handlesOf (some "meet"))).length)
  have hbucket : cat.methods? "meet" = some (cat.handlesOf (some "meet")) :=
    Catalogue.methods?_eq_some_iff.2 ⟨Catalogue.ne_nil_of_mem_members ho, rfl⟩
  refine ⟨cat, hcat, _, hbucket, hways, ?_, fun rules => ?_⟩
  · rw [Catalogue.constructors, cat.members_handlesOf, hentries]
    decide +kernel
  · obtain ⟨-, -, hall⟩ :=
      regular_sample.reachable.own_parameters membersByKind_sample hcat rules
    obtain ⟨hmethods, hconstructors⟩ :=
      hall fun t _ ht => absurd ht (regular_sample.not_selfNested t)
    exact ⟨hmethods _ _ hbucket, hconstructors⟩

/-! ## Where the bucket is not got through -/

/-- The two endless arrays, and a class with a method for each of them. -/
def endlessVet : Registry :=
  let vet := ((ClassDecl.named "Vet").addMethod "meet" [.ofName "Right[]"]).addMethod "meet"
    [.ofName "Left[]"]
  (endless.applyAll [.decl (.ofClass vet)]).2

/-- **The parameters of an overload need not get a call answered**, also in a registry without
problems.  Asked for the second method with just its parameters, the scan goes on for ever at the
first one. -/
theorem own_parameters_endlessVet : endlessVet.Reachable ∧ endlessVet.problems = [] ∧
    endlessVet.MembersByKind ∧ ∃ cat, endlessVet.catalogue default (.ofName "Vet") = .ok cat ∧
      ∃ bucket, cat.methods? "meet" = some bucket ∧ ∃ o ∈ cat.members bucket,
        ∀ rules, endlessVet.methodAnswer? rules cat "meet" o.asArgs = none := by
  have hendless : endless.Reachable := regular_primitives.reachable.applyAll fun _ _ => trivial
  have hr : endlessVet.Reachable := hendless.applyAll fun _ _ => trivial
  have hkinds : endlessVet.MembersByKind :=
    forall_find? (p := fun d => (∀ m ∈ d.constructors, m.name = none) ∧
      ∀ m ∈ d.methods, m.name ≠ none) (by decide +kernel)
  obtain ⟨cat, hcat⟩ :=
    exists_eq_ok (x := endlessVet.catalogue default (.ofName "Vet")) (by decide +kernel)
  have hentries := entries_of_catalogue hcat
  let left := TypeId.ofName "Left[]"
  let right := TypeId.ofName "Right[]"
  let method (t : TypeId) := Overload.ofMember (.method (.ofName "Vet") "meet" [t])
  have hsplit :
      cat.members (cat.handlesOf (some "meet")) = [method right] ++ method left :: [] := by
    rw [cat.members_handlesOf, hentries]
    decide +kernel
  have hmem : method left ∈ cat.members (cat.handlesOf (some "meet")) := hsplit ▸ by simp
  have hbucket : cat.methods? "meet" = some (cat.handlesOf (some "meet")) :=
    Catalogue.methods?_eq_some_iff.2 ⟨Catalogue.ne_nil_of_mem_members hmem, rfl⟩
  refine ⟨hr, by decide +kernel, hkinds, cat, hcat, _, hbucket, method left, hmem, fun rules => ?_⟩
  have hleft : endlessVet.SelfNested left := ⟨0, by decide +kernel⟩
  have hright : endlessVet.SelfNested right := ⟨0, by decide +kernel⟩
  have hsearch (t u : TypeId) (h : endlessVet.acceptsEnds rules (method u) (method t).asArgs) :
      endlessVet.Terminates rules t u :=
    placesEnd_iff.1 (acceptsEnds_iff.1 h rfl) [] u t [] rfl (by simp)
  rw [methodAnswer?, hbucket]
  refine (hr.selectAnswer?_own hkinds hcat hsplit rules).trans (if_neg fun h => ?_)
  have hfirst := List.all_eq_true.1 h _ (List.mem_singleton_self _)
  exact absurd (hleft.eq_of_terminates hright (hsearch _ _ hfirst)) (by decide +kernel)

end Registry
end CallResolution
