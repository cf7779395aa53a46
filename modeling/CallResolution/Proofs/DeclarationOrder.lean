/-
# The order of declarations

A supertype of the wrong kind is refused at once when it is declared before its
subtype, and found among the problems of the finished registry when it is declared
after it.  So the order decides which errors are reported, but not whether there are
any: two declarations that are taken one after the other, and to which no problems
are found in the end, are taken the other way round as well (`declare_swap`), and
the registries that come of it are alike.  Swap by swap this carries over to every
permutation of the declared types (`applyAll_perm`, `registry_perm`).
-/

import CallResolution.Declarations
import CallResolution.Proofs.Registry.Alike

namespace CallResolution
namespace Registry

/-- The edge from a declared type to each of its supertypes is recorded. -/
theorem mem_edges_of_declare {r s : Registry} {d : TypeDecl} (h : r.declare d = .ok s) {t : TypeId}
    (ht : t ∈ d.parents) : (d.id, t) ∈ s.hierarchy.edges := by
  obtain ⟨e, he, hsup⟩ := Hierarchy.exists_mem_newEdges.2 ht
  rw [Hierarchy.mem_edges_iff_edgesFrom, (gains_of_declare h).edgesFrom, if_pos rfl]
  exact ⟨e, List.mem_append_left _ he, hsup⟩

/-- Storing two declarations in either order comes to the same. -/
theorem Gains.alike_swap {r s t s' t' : Registry} {d e : TypeDecl} (hid : d.id ≠ e.id)
    (hname : d.name ≠ e.name) (gd : r.Gains d s) (ge : s.Gains e t) (ge' : r.Gains e s')
    (gd' : s'.Gains d t') : t.Alike t' where
  find? := by
    funext u
    rw [ge.find?, gd.find?, gd'.find?, ge'.find?]
    have hne : e.id = u → ¬d.id = u := fun he hd => hid (hd.trans he.symm)
    exact ite_ite_comm _ _ _ _ hne
  idOf? := by
    funext name
    rw [ge.idOf?, gd.idOf?, gd'.idOf?, ge'.idOf?]
    have hne : e.name = name → ¬d.name = name := fun he hd => hname (hd.trans he.symm)
    exact ite_ite_comm _ _ _ _ hne
  edges := by
    intro u
    rw [ge.edgesFrom, gd.edgesFrom, gd'.edgesFrom, ge'.edgesFrom]
    by_cases hd : d.id = u
    · have he : e.id ≠ u := fun he => hid (hd.trans he.symm)
      simp only [hd, he, if_true, if_false]
    · simp only [hd, if_false]

/-- **Two declarations may be swapped**, if the second is of a kind that the first may extend when
the first does extend it. -/
theorem declare_swap {r s t : Registry} {d e : TypeDecl} (hd : r.declare d = .ok s)
    (he : s.declare e = .ok t) (hkind : e.id ∈ d.parents → d.supertypeError? e = none) :
    ∃ s' t', r.declare e = .ok s' ∧ s'.declare d = .ok t' ∧ t.Alike t' := by
  have gd := gains_of_declare hd
  have ge := gains_of_declare he
  obtain ⟨hdrej, -⟩ := declare_eq_ok.1 hd
  obtain ⟨herej, -⟩ := declare_eq_ok.1 he
  rw [rejection?_eq_none_iff] at hdrej herej
  obtain ⟨hdfree, hdname, hdsup, hdmem⟩ := hdrej
  obtain ⟨hefree, hename, hesup, hemem⟩ := herej
  have hid : d.id ≠ e.id := by
    intro h
    simp [gd.find?, h] at hefree
  have hname : d.name ≠ e.name := by
    intro h
    simp [gd.idOf?, h] at hename
  rw [gd.find?, if_neg hid] at hefree
  rw [gd.idOf?, if_neg hname] at hename
  have he' : r.rejection? e = none := by
    refine rejection?_eq_none_iff.2 ⟨hefree, hename, fun u hu x hx => hesup u hu x ?_, hemem⟩
    exact find?_of_apply (x := .decl d) hd hx
  obtain ⟨s', hs'⟩ : ∃ s', r.declare e = .ok s' := ⟨_, declare_eq_ok.2 ⟨he', rfl⟩⟩
  have ge' := gains_of_declare hs'
  have hd' : s'.rejection? d = none := by
    refine rejection?_eq_none_iff.2 ⟨?_, ?_, fun u hu x hx => ?_, hdmem⟩
    · rw [ge'.find?, if_neg hid.symm, hdfree]
    · rw [ge'.idOf?, if_neg hname.symm, hdname]
    · rw [ge'.find?] at hx
      split at hx
      · next heu =>
        obtain rfl := Option.some.inj hx
        exact hkind (heu ▸ hu)
      · exact hdsup u hu x hx
  obtain ⟨t', ht'⟩ : ∃ t', s'.declare d = .ok t' := ⟨_, declare_eq_ok.2 ⟨hd', rfl⟩⟩
  exact ⟨s', t', hs', ht', gd.alike_swap hid hname ge ge' (gains_of_declare ht')⟩

/-- **Declarations may be permuted** when all registrations are taken and no problems are found in
the end. -/
theorem applyAll_perm {ts ts' : List TypeDecl} (hp : ts.Perm ts') {rest : List Registration}
    {r r' s : Registry} (e : r.Alike r')
    (h : r.applyAll (ts.map .decl ++ rest) = ([], s)) (hok : s.problems = []) :
    ∃ s', r'.applyAll (ts'.map .decl ++ rest) = ([], s') ∧ s.Alike s' := by
  induction hp generalizing r r' s with
  | nil => exact e.applyAll h
  | cons d _ ih =>
    obtain ⟨mid, hd, hrest⟩ := applyAll_cons_eq_nil.1 h
    obtain ⟨mid', hd', emid⟩ := e.apply hd
    obtain ⟨s', hrest', es⟩ := ih emid hrest hok
    exact ⟨s', applyAll_cons_eq_nil.2 ⟨mid', hd', hrest'⟩, es⟩
  | swap d₂ d₁ ts =>
    obtain ⟨mid₁, h₁, hrest₁⟩ := applyAll_cons_eq_nil.1 h
    obtain ⟨mid₂, h₂, hrest₂⟩ := applyAll_cons_eq_nil.1 hrest₁
    -- The kind of the second as a supertype of the first was only looked at in the end.
    have hkind : d₂.id ∈ d₁.parents → d₁.supertypeError? d₂ = none := by
      intro hmem
      have hedge := edges_of_applyAll hrest₁ (mem_edges_of_declare h₁ hmem)
      have hfind₁ := find?_of_applyAll hrest₁ (gains_of_declare h₁).find?_self
      have hfind₂ := find?_of_applyAll hrest₂ (gains_of_declare h₂).find?_self
      obtain ⟨sup, hsup, herror⟩ := (problems_eq_nil_iff.1 hok).1 _ _ hedge d₁ hfind₁
      obtain rfl : d₂ = sup := find?_unique hfind₂ hsup
      exact herror
    obtain ⟨a, b, ha, hb, eb⟩ := declare_swap h₁ h₂ hkind
    obtain ⟨a', ha', ea'⟩ := e.apply (x := .decl d₂) ha
    obtain ⟨b', hb', eb'⟩ := ea'.apply (x := .decl d₁) hb
    obtain ⟨s', hrest', es⟩ := (eb.trans eb').applyAll hrest₂
    exact ⟨s', applyAll_cons_eq_nil.2 ⟨a', ha', applyAll_cons_eq_nil.2 ⟨b', hb', hrest'⟩⟩, es⟩
  | trans _ _ ih₁ ih₂ =>
    obtain ⟨s₁, h₁, e₁⟩ := ih₁ (.refl r) h hok
    obtain ⟨s₂, h₂, e₂⟩ := ih₂ e h₁ (e₁.problems_eq_nil hok)
    exact ⟨s₂, h₂, e₁.trans e₂⟩

end Registry

namespace Declarations

theorem registry_eq_ok_iff {d : Declarations} {r : Registry} : d.registry = .ok r ↔
    Registry.primitives.applyAll d.registrations = ([], r) ∧ r.problems = [] := by
  rw [registry]
  rcases Registry.primitives.applyAll d.registrations with ⟨refused, s⟩
  dsimp only
  split
  · next hnil =>
    obtain ⟨hrefused, hproblems⟩ := List.append_eq_nil_iff.1 hnil
    constructor
    · intro h
      obtain rfl := Except.ok.inj h
      exact ⟨by rw [hrefused], hproblems⟩
    · rintro ⟨h, -⟩
      rw [(Prod.mk.inj h).2]
  · next hne =>
    constructor
    · intro h
      cases h
    · rintro ⟨h, hproblems⟩
      obtain ⟨rfl, rfl⟩ := Prod.mk.inj h
      exact absurd hproblems hne

theorem exists_registry_of_perm {ts ts' : List TypeDecl} (hp : ts.Perm ts') (arrays : List TypeId)
    (settings : Settings) {r : Registry} (h : (mk ts arrays settings).registry = .ok r) :
    ∃ s, (mk ts' arrays settings).registry = .ok s ∧ r.Alike s := by
  obtain ⟨happly, hok⟩ := registry_eq_ok_iff.1 h
  obtain ⟨s, hs, e⟩ := Registry.applyAll_perm hp (.refl _) happly hok
  exact ⟨s, registry_eq_ok_iff.2 ⟨hs, e.problems_eq_nil hok⟩, e⟩

/-- **The order of the declared types does not matter:** either all orders make a registry or none
does, and no question tells the registries of two orders apart. -/
theorem registry_perm {ts ts' : List TypeDecl} (hp : ts.Perm ts') (arrays : List TypeId)
    (settings : Settings) :
    ((∃ r, (mk ts arrays settings).registry = .ok r) ↔
      ∃ s, (mk ts' arrays settings).registry = .ok s) ∧
    ∀ r s, (mk ts arrays settings).registry = .ok r → (mk ts' arrays settings).registry = .ok s →
      r.AnswersAs s := by
  refine ⟨⟨?_, ?_⟩, fun r s hr hs => ?_⟩
  · rintro ⟨r, hr⟩
    obtain ⟨s, hs, -⟩ := exists_registry_of_perm hp arrays settings hr
    exact ⟨s, hs⟩
  · rintro ⟨s, hs⟩
    obtain ⟨r, hr, -⟩ := exists_registry_of_perm hp.symm arrays settings hs
    exact ⟨r, hr⟩
  · obtain ⟨s', hs', e⟩ := exists_registry_of_perm hp arrays settings hr
    obtain rfl : s' = s := Except.ok.inj (hs'.symm.trans hs)
    exact e.answersAs

/-- The sample types, and the same with the supertypes first: both registries hold them all beside
the primitives and an array, and the catalogue of cats is the same. -/
theorem registry_perm_sample :
    let arrays := [TypeId.ofName "Cat"]
    ∃ r s, (mk Registry.sampleTypes arrays default).registry = .ok r ∧
      (mk Registry.sampleTypes.reverse arrays default).registry = .ok s ∧ r.AnswersAs s ∧
      r.size = 15 ∧ s.size = 15 ∧ ∃ cat, r.catalogue default (.ofName "Cat") = .ok cat ∧
        s.catalogue default (.ofName "Cat") = .ok cat ∧ cat.size = 5 := by
  intro arrays
  have h := registry_perm (List.reverse_perm Registry.sampleTypes).symm arrays default
  obtain ⟨r, hr⟩ : ∃ r, (mk Registry.sampleTypes arrays default).registry = .ok r :=
    Registry.exists_eq_ok (by decide +kernel)
  obtain ⟨s, hs⟩ := h.1.1 ⟨r, hr⟩
  have hsame := h.2 r s hr hs
  have hheld : (mk Registry.sampleTypes arrays default).registry.toOption.map
      (fun r => (r.size, ((r.catalogue default (.ofName "Cat")).toOption.map Catalogue.size))) =
        some (15, some 5) := by decide +kernel
  rw [hr] at hheld
  obtain ⟨hsize, hcat⟩ := Prod.mk.inj (Option.some.inj hheld)
  cases hbuilt : r.catalogue default (.ofName "Cat") with
  | error e =>
    rw [hbuilt] at hcat
    cases hcat
  | ok cat =>
    rw [hbuilt] at hcat
    exact ⟨r, s, hr, hs, hsame, hsize, hsame.size ▸ hsize, cat, hbuilt,
      hsame.catalogue default _ ▸ hbuilt, Option.some.inj hcat⟩

end Declarations
end CallResolution
