/-
# What a history of requests leaves in a cache

Requests may come with a different registry and different settings each time.  What the cache holds
after them can be read off the log of requests and answers (`answerAll`): under each type the
catalogue that was handed out for it first, and one build for every catalogue kept and every build
that failed (`Cache.Recalls`).

A request does one of four things (`answer_cases`).  It is turned away because its target can have
no catalogue; it is answered with what is kept; or it begins a build, and this fails or is kept.
Each of the four leaves the cache in step with the log (`Recalls.answer`), and so does a history of
any length (`recalls_answerAll`).
-/

import CallResolution.Proofs.Cache.Transparency
import CallResolution.Proofs.Catalogue.Integrity

namespace CallResolution

/-- A request for the catalogue of a type, with the registry and the settings that it comes with. -/
structure Fetch where
  registry : Registry
  settings : Settings
  target : TypeId

/-- Whether the target is a class or an interface of the registry. -/
def Fetch.isKnown (f : Fetch) : Bool := (f.registry.find? f.target).any TypeDecl.isReference

namespace Registry

variable {r : Registry} {t : TypeId}

/-- A type can have a catalogue if it is a registered class or interface and its identity is not the
empty one. -/
theorem targetDecl_eq_ok_iff {d : TypeDecl} :
    r.targetDecl t = .ok d ↔ t ≠ .empty ∧ r.find? t = some d ∧ d.isReference := by
  rw [targetDecl, Host.targetDecl, host_find?]
  split
  · next h => simp [h]
  · next h =>
    cases hd : r.find? t with
    | none => simp
    | some e =>
      constructor
      · intro hok
        cases e with
        | ofPrimitive p => cases hok
        | ofArray a => cases hok
        | ofClass c => exact ⟨h, congrArg some (Except.ok.inj hok), Except.ok.inj hok ▸ rfl⟩
        | ofInterface i => exact ⟨h, congrArg some (Except.ok.inj hok), Except.ok.inj hok ▸ rfl⟩
      · rintro ⟨-, he, href⟩
        obtain rfl := Option.some.inj he
        cases e with
        | ofPrimitive p => cases href
        | ofArray a => cases href
        | ofClass c => rfl
        | ofInterface i => rfl

theorem invalidTarget_of_targetDecl {e : CallError} (h : r.targetDecl t = .error e) :
    ∃ fault, e = .invalidTarget t fault := by
  rw [targetDecl, Host.targetDecl] at h
  split at h
  · exact ⟨_, (Except.error.inj h).symm⟩
  · split at h
    · exact ⟨_, (Except.error.inj h).symm⟩
    · exact ⟨_, (Except.error.inj h).symm⟩
    · exact ⟨_, (Except.error.inj h).symm⟩
    · cases h

/-- For a type that can have a catalogue, a build fails with an internal error if it fails. -/
theorem isInternal_of_catalogue {settings : Settings} {d : TypeDecl} {e : CallError}
    (hd : r.targetDecl t = .ok d) (h : r.catalogue settings t = .error e) : e.isInternal :=
  Catalogue.isInternal_of_foldlM ((Host.catalogue_of_targetDecl hd).symm.trans h)

end Registry

namespace Cache

/-! ## Requests and their log -/

/-- Requests with their answers, in order. -/
abbrev Log := List (Fetch × Except CallError Catalogue)

/-- The answer to a request, and the cache after it. -/
def answer (c : Cache) (f : Fetch) : Except CallError Catalogue × Cache :=
  c.fetch f.registry f.settings f.target

/-- The log of requests that are made one after the other, and the cache after them. -/
def answerAll (c : Cache) : List Fetch → Log × Cache
  | [] => ([], c)
  | f :: fs =>
    let (found, c) := c.answer f
    let (log, c) := c.answerAll fs
    ((f, found) :: log, c)

theorem answerAll_append_singleton (c : Cache) (fs : List Fetch) (f : Fetch) :
    c.answerAll (fs ++ [f]) = ((c.answerAll fs).1 ++ [(f, ((c.answerAll fs).2.answer f).1)],
      ((c.answerAll fs).2.answer f).2) := by
  induction fs generalizing c with
  | nil => rfl
  | cons g fs ih => simp only [List.cons_append, answerAll, ih]

/-- The catalogues that were handed out, each with its type, in order. -/
def handedOut (log : Log) : List (TypeId × Catalogue) :=
  log.filterMap fun p => p.2.toOption.map fun cat => (p.1.target, cat)

/-- A request was refused, and not for its target. -/
def isFailedBuild : Except CallError Catalogue → Bool
  | .ok _ => false
  | .error e => !e.isInvalidTarget

/-- How many requests were refused, though not for their targets. -/
def failedBuilds (log : Log) : Nat := log.countP fun p => isFailedBuild p.2

section

variable {log : Log} {f : Fetch}

theorem mem_handedOut {t : TypeId} {cat : Catalogue} :
    (t, cat) ∈ handedOut log ↔ ∃ f, (f, .ok cat) ∈ log ∧ f.target = t := by
  unfold handedOut
  rw [List.mem_filterMap]
  constructor
  · rintro ⟨⟨f, found⟩, hmem, hfound⟩
    cases found with
    | error e => cases hfound
    | ok cat' =>
      obtain ⟨rfl, rfl⟩ := Prod.mk.inj (Option.some.inj hfound)
      exact ⟨f, hmem, rfl⟩
  · rintro ⟨f, hmem, rfl⟩
    exact ⟨_, hmem, rfl⟩

theorem isSome_lookup_handedOut {t : TypeId} : ((handedOut log).lookup t).isSome ↔
    ∃ f cat, (f, .ok cat) ∈ log ∧ f.target = t := by
  rw [List.lookup_isSome_iff]
  constructor
  · rintro ⟨⟨u, cat⟩, hmem, hu⟩
    obtain rfl : t = u := by simpa using hu
    obtain ⟨f, hf⟩ := mem_handedOut.1 hmem
    exact ⟨f, cat, hf⟩
  · rintro ⟨f, cat, hf⟩
    exact ⟨(t, cat), mem_handedOut.2 ⟨f, hf⟩, by simp⟩

theorem handedOut_append_error (e : CallError) :
    handedOut (log ++ [(f, .error e)]) = handedOut log := by
  simp [handedOut, List.filterMap_append, Except.toOption]

theorem handedOut_append_ok (cat : Catalogue) :
    handedOut (log ++ [(f, .ok cat)]) = handedOut log ++ [(f.target, cat)] := by
  simp [handedOut, List.filterMap_append, Except.toOption]

/-- What is handed out for a type later does not matter if something was before. -/
theorem lookup_handedOut_append_ok (cat : Catalogue) (t : TypeId) :
    (handedOut (log ++ [(f, .ok cat)])).lookup t =
      ((handedOut log).lookup t).or (if f.target = t then some cat else none) := by
  rw [handedOut_append_ok, List.lookup_append, List.lookup_cons]
  by_cases ht : f.target = t
  · simp [ht]
  · simp [ht, beq_eq_false_iff_ne.2 (Ne.symm ht)]

theorem failedBuilds_append (found : Except CallError Catalogue) :
    failedBuilds (log ++ [(f, found)]) =
      failedBuilds log + if isFailedBuild found then 1 else 0 := by
  simp [failedBuilds, List.countP_append, List.countP_singleton]

end

/-- **What a request does:** it is turned away, it is answered with what is kept, or it begins a
build that fails or is kept. -/
theorem answer_cases (c : Cache) (f : Fetch) :
    (∃ fault, c.answer f = (.error (.invalidTarget f.target fault), c)) ∨
    (∃ cat, c.find? f.target = some cat ∧ c.answer f = (.ok cat, c)) ∨
    (∃ e, e.isInternal ∧ c.answer f = (.error e, { c with builds := c.builds + 1 })) ∨
    ∃ cat, f.target ≠ .empty ∧ c.find? f.target = none ∧
      c.answer f = (.ok cat, ⟨c.built.insert f.target cat, c.builds + 1⟩) := by
  unfold answer fetch
  cases htarget : f.registry.targetDecl f.target with
  | error e =>
    obtain ⟨fault, rfl⟩ := Registry.invalidTarget_of_targetDecl htarget
    exact .inl ⟨fault, rfl⟩
  | ok d =>
    right
    cases hkept : c.find? f.target with
    | some cat => exact .inl ⟨cat, rfl, rfl⟩
    | none =>
      right
      cases hbuilt : f.registry.catalogue f.settings f.target with
      | error e => exact .inl ⟨e, Registry.isInternal_of_catalogue htarget hbuilt, rfl⟩
      | ok cat => exact .inr ⟨cat, (Registry.targetDecl_eq_ok_iff.1 htarget).1, rfl, rfl⟩

/-! ## The cache in step with the log -/

/-- The cache is what the requests of the log and their answers make of an empty one. -/
structure Recalls (c : Cache) (log : Log) : Prop where
  /-- Of the catalogues handed out for a type the first is kept. -/
  find?_eq (t : TypeId) : c.find? t = (handedOut log).lookup t
  size_eq : c.size = (distinctOn id ((handedOut log).map Prod.fst)).length
  builds_eq : c.builds = c.size + failedBuilds log
  ne_empty {t : TypeId} {cat : Catalogue} : c.find? t = some cat → t ≠ .empty

theorem find?_empty (t : TypeId) : (∅ : Cache).find? t = none := Std.TreeMap.getElem?_emptyc

theorem recalls_nil : (∅ : Cache).Recalls [] where
  find?_eq := find?_empty
  size_eq := rfl
  builds_eq := rfl
  ne_empty h := by simp [find?_empty] at h

namespace Recalls

variable {c : Cache} {log : Log}

/-- A type is kept when a catalogue was handed out for it. -/
theorem mem_iff (h : c.Recalls log) {t : TypeId} :
    t ∈ (handedOut log).map Prod.fst ↔ c.find? t ≠ none := by
  rw [h.find?_eq, ← Option.isSome_iff_ne_none, List.lookup_isSome_iff, List.mem_map]
  simp only [beq_iff_eq, @eq_comm _ t]

theorem error (h : c.Recalls log) (f : Fetch) {e : CallError} {builds : Nat}
    (hbuilds : builds = c.builds + if isFailedBuild (.error e) then 1 else 0) :
    Recalls { c with builds := builds } (log ++ [(f, .error e)]) where
  find?_eq t := by
    rw [handedOut_append_error]
    exact h.find?_eq t
  size_eq := by
    rw [handedOut_append_error]
    exact h.size_eq
  builds_eq := by
    show builds = c.size + _
    rw [hbuilds, failedBuilds_append, h.builds_eq, Nat.add_assoc]
  ne_empty := h.ne_empty

theorem kept (h : c.Recalls log) {f : Fetch} {cat : Catalogue} (hcat : c.find? f.target = some cat) :
    c.Recalls (log ++ [(f, .ok cat)]) where
  find?_eq t := by
    rw [lookup_handedOut_append_ok, ← h.find?_eq]
    split
    · next ht => rw [← ht, hcat, Option.some_or]
    · rw [Option.or_none]
  size_eq := by
    have hmem : f.target ∈ (handedOut log).map Prod.fst := h.mem_iff.2 (by simp [hcat])
    rw [handedOut_append_ok, List.map_append, List.map_singleton, distinctOn_id_append_singleton,
      if_pos hmem, List.append_nil, h.size_eq]
  builds_eq := by
    rw [failedBuilds_append, h.builds_eq]
    rfl
  ne_empty := h.ne_empty

theorem built (h : c.Recalls log) {f : Fetch} (hne : f.target ≠ .empty)
    (hnone : c.find? f.target = none) (cat : Catalogue) :
    Recalls ⟨c.built.insert f.target cat, c.builds + 1⟩ (log ++ [(f, .ok cat)]) where
  find?_eq t := by
    rw [find?_insert, lookup_handedOut_append_ok, ← h.find?_eq]
    split
    · next ht => rw [← ht, hnone, Option.none_or]
    · rw [Option.or_none]
  size_eq := by
    have hmem : f.target ∉ (handedOut log).map Prod.fst := by rw [h.mem_iff, hnone]; simp
    have hsize := size_insert_of_find? hnone cat (c.builds + 1)
    rw [hsize, handedOut_append_ok, List.map_append, List.map_singleton,
      distinctOn_id_append_singleton, if_neg hmem, List.length_append, h.size_eq]
    rfl
  builds_eq := by
    have hsize := size_insert_of_find? hnone cat (c.builds + 1)
    rw [hsize, failedBuilds_append]
    show c.builds + 1 = c.size + 1 + (failedBuilds log + 0)
    have := h.builds_eq
    omega
  ne_empty {t _} ht := by
    rw [find?_insert] at ht
    split at ht
    · next heq => exact heq ▸ hne
    · exact h.ne_empty ht

/-- **One request** leaves the cache in step with the log. -/
theorem answer (h : c.Recalls log) (f : Fetch) :
    (c.answer f).2.Recalls (log ++ [(f, (c.answer f).1)]) := by
  rcases c.answer_cases f with ⟨fault, hf⟩ | ⟨cat, hcat, hf⟩ | ⟨e, he, hf⟩ | ⟨cat, hne, hnone, hf⟩
  all_goals rw [hf]
  · exact h.error f rfl
  · exact h.kept hcat
  · refine h.error f ?_
    cases e with
    | sharedHandle _ _ _ _ | danglingHandle _ _ => rfl
    | invalidTarget _ _ | notFound _ _ | ambiguous _ _ => cases he
  · exact h.built hne hnone cat

end Recalls

/-- **Any history of requests** does. -/
theorem recalls_answerAll (history : List Fetch) :
    ((∅ : Cache).answerAll history).2.Recalls ((∅ : Cache).answerAll history).1 := by
  induction history using List.reverseRecOn with
  | nil => exact recalls_nil
  | append_singleton fs f ih =>
    rw [answerAll_append_singleton]
    exact ih.answer f

theorem map_fst_answerAll (c : Cache) (history : List Fetch) :
    (c.answerAll history).1.map Prod.fst = history := by
  induction history generalizing c with
  | nil => rfl
  | cons f fs ih => simp [answerAll, ih]

/-- What the first of the requests is given is what is handed out first. -/
theorem lookup_handedOut_answerAll_cons {c : Cache} {f : Fetch} {cat : Catalogue}
    (h : (c.answer f).1 = .ok cat) (fs : List Fetch) :
    (handedOut (c.answerAll (f :: fs)).1).lookup f.target = some cat := by
  show (handedOut ((f, (c.answer f).1) :: _)).lookup f.target = _
  rw [h]
  exact List.lookup_cons_self

/-- A request for a type that is neither a class nor an interface is turned away. -/
theorem answer_of_not_isKnown (c : Cache) {f : Fetch} (h : f.isKnown = false) :
    ∃ fault, c.answer f = (.error (.invalidTarget f.target fault), c) := by
  unfold answer fetch
  cases htarget : f.registry.targetDecl f.target with
  | error e =>
    obtain ⟨fault, rfl⟩ := Registry.invalidTarget_of_targetDecl htarget
    exact ⟨fault, rfl⟩
  | ok d =>
    obtain ⟨-, hd, href⟩ := Registry.targetDecl_eq_ok_iff.1 htarget
    simp [Fetch.isKnown, hd, href] at h

/-- A request for a class or an interface that is kept is answered with what is kept. -/
theorem answer_of_isKnown {c : Cache} {f : Fetch} (h : f.isKnown) (hne : f.target ≠ .empty)
    {cat : Catalogue} (hcat : c.find? f.target = some cat) : c.answer f = (.ok cat, c) := by
  obtain ⟨d, hd, href⟩ := (Option.any_eq_true _ _).1 h
  unfold answer fetch
  rw [Registry.targetDecl_eq_ok_iff.2 ⟨hne, hd, href⟩, hcat]

/-- **What a cache has come to after any history of requests**, with any registries and settings.
It keeps for each type the catalogue that was handed out for it first, and so for the types that had
a request granted; it has begun a build for each catalogue that it keeps and for each request that
failed though its target was valid.  The next request is turned away and changes nothing if its
target is no class or interface of its registry, whatever is kept for it.  If it is, the request is
answered with what is kept, whatever the registry and the settings are now, and with what they give
only if nothing is kept. -/
theorem answerAll_recalls (history : List Fetch) :
    let log := ((∅ : Cache).answerAll history).1
    let c := ((∅ : Cache).answerAll history).2
    log.map Prod.fst = history ∧
      (∀ t, c.find? t = (handedOut log).lookup t) ∧
      (∀ t, (c.find? t).isSome ↔ ∃ f cat, (f, .ok cat) ∈ log ∧ f.target = t) ∧
      c.size = (distinctOn id ((handedOut log).map Prod.fst)).length ∧
      c.builds = c.size + failedBuilds log ∧
      ∀ f : Fetch,
        (f.isKnown = false → ∃ fault, c.answer f = (.error (.invalidTarget f.target fault), c)) ∧
        (f.isKnown = true → ∀ cat, (handedOut log).lookup f.target = some cat →
          c.answer f = (.ok cat, c)) ∧
        ((handedOut log).lookup f.target = none →
          (c.answer f).1 = f.registry.catalogue f.settings f.target) := by
  intro log c
  have h : c.Recalls log := recalls_answerAll history
  refine ⟨map_fst_answerAll ∅ history, h.find?_eq, fun t => ?_, h.size_eq, h.builds_eq, fun f =>
    ⟨c.answer_of_not_isKnown, fun hknown cat hcat => ?_, fun hnone => ?_⟩⟩
  · rw [h.find?_eq, isSome_lookup_handedOut]
  · rw [← h.find?_eq] at hcat
    exact answer_of_isKnown hknown (h.ne_empty hcat) hcat
  · rw [← h.find?_eq] at hnone
    refine fetch_fst_of_kept fun cat hcat => ?_
    rw [hnone] at hcat
    cases hcat

/-- Cats are asked for twice, the second time of a registry that does not know them; in between a
build fails.  There is one catalogue then and there have been two builds, and those who ask for cats
next are given the catalogue of the first request, by a registry that has another class of cats. -/
theorem answerAll_recalls_sample :
    let cats : Fetch := ⟨Registry.sample, default, .ofName "Cat"⟩
    let history := [cats, ⟨Registry.clash, default, .ofName "Clash"⟩, ⟨∅, default, .ofName "Cat"⟩]
    let c := ((∅ : Cache).answerAll history).2
    let others := (Registry.primitives.applyAll [.decl (.ofClass (.named "Cat"))]).2
    c.size = 1 ∧ c.builds = 2 ∧
      (∃ fault, c.answer ⟨∅, default, .ofName "Cat"⟩ =
        (.error (.invalidTarget (.ofName "Cat") fault), c)) ∧
      ∃ cat, Registry.sample.catalogue default (.ofName "Cat") = .ok cat ∧ cat.size = 5 ∧
        c.answer ⟨others, default, .ofName "Cat"⟩ = (.ok cat, c) := by
  intro cats history c others
  obtain ⟨-, -, -, hsize, hbuilds, hnext⟩ := answerAll_recalls history
  obtain ⟨cat, hcat⟩ := Registry.exists_eq_ok
    (x := Registry.sample.catalogue default (.ofName "Cat")) (by decide +kernel)
  have hfirst : ((∅ : Cache).answer cats).1 = .ok cat :=
    (fetch_fst_of_kept fun _ h => by simp [find?_empty] at h).trans hcat
  have hlookup := lookup_handedOut_answerAll_cons hfirst (history.drop 1)
  refine ⟨?_, ?_, (hnext ⟨∅, default, _⟩).1 (by decide +kernel), cat, hcat, ?_,
    (hnext ⟨others, default, _⟩).2.1 (by decide +kernel) cat hlookup⟩
  · rw [hsize]
    decide +kernel
  · rw [hbuilds, hsize]
    decide +kernel
  · rw [Catalogue.size, Registry.entries_of_catalogue hcat]
    decide +kernel

end Cache
end CallResolution
