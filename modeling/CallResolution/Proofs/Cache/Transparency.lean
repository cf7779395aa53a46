/-
# The cache does not show

A resolver answers every request as if it built each catalogue anew, whatever it was asked before
(`Resolver.serveAll_of`).  What carries this through a history is that the cache never holds
anything but what a build gives (`Cache.Holds`): a request for a catalogue that is kept is answered
with it, one for a catalogue that is not kept adds what was built, and one that fails, because the
type can have no catalogue or because the build failed, adds nothing (`Cache.Holds.fetch_fst`,
`Cache.Holds.fetch_snd`).
-/

import CallResolution.Resolver

namespace CallResolution

/-! ## The cache -/

namespace Cache

/-- All catalogues that are kept are those that `r` has under the settings. -/
def Holds (c : Cache) (r : Registry) (settings : Settings) : Prop :=
  ∀ t cat, c.find? t = some cat → r.catalogue settings t = .ok cat

variable {c : Cache} {r : Registry} {settings : Settings}

theorem holds_empty (r : Registry) (settings : Settings) : (∅ : Cache).Holds r settings := by
  intro t cat h
  have hnone : (∅ : Cache).find? t = none := Std.TreeMap.getElem?_emptyc
  rw [hnone] at h
  cases h

theorem find?_insert (c : Cache) (builds : Nat) (t u : TypeId) (cat : Catalogue) :
    (Cache.mk (c.built.insert t cat) builds).find? u = if t = u then some cat else c.find? u := by
  simp [find?, Std.TreeMap.getElem?_insert]

theorem size_insert_of_find? {t : TypeId} (h : c.find? t = none) (cat : Catalogue) (builds : Nat) :
    (Cache.mk (c.built.insert t cat) builds).size = c.size + 1 := by
  have hc : c.built.contains t = false := by
    rw [← Option.isSome_eq_false_iff.2 (Option.isNone_iff_eq_none.2 h)]
    simp [find?]
  simp [size, Std.TreeMap.size_insert, hc]

/-- What is fetched is what a build gives, if that holds of what is kept for the type. -/
theorem fetch_fst_of_kept {t : TypeId}
    (h : ∀ cat, c.find? t = some cat → r.catalogue settings t = .ok cat) :
    (c.fetch r settings t).1 = r.catalogue settings t := by
  rw [fetch]
  cases htarget : r.targetDecl t with
  | error e => simp only [Registry.catalogue, Host.catalogue, Registry.host_targetDecl, htarget]
  | ok d =>
    cases hkept : c.find? t with
    | some cat => exact (h cat hkept).symm
    | none => cases hbuilt : r.catalogue settings t <;> rfl

theorem Holds.fetch_fst (h : c.Holds r settings) (t : TypeId) :
    (c.fetch r settings t).1 = r.catalogue settings t :=
  fetch_fst_of_kept (h t)

/-- Only catalogues that were built are added. -/
theorem Holds.fetch_snd (h : c.Holds r settings) (t : TypeId) :
    (c.fetch r settings t).2.Holds r settings := by
  rw [fetch]
  cases r.targetDecl t with
  | error e => exact h
  | ok d =>
    cases c.find? t with
    | some cat => exact h
    | none =>
      cases hbuilt : r.catalogue settings t with
      | error e => exact h
      | ok cat =>
        intro u cat' hu
        rw [find?_insert] at hu
        split at hu
        · next htu => rw [← htu, hbuilt, Option.some.inj hu]
        · exact h u cat' hu

end Cache

/-! ## Answers without a cache -/

namespace Registry

/-- The constructor of `t` to call, by a catalogue built for this call. -/
def freshConstructor (r : Registry) (settings : Settings) (t : TypeId) (args : List Arg) :
    Except CallError Overload :=
  (r.catalogue settings t).bind fun cat => r.selectConstructor settings.rules cat args

/-- The method of `t` called `name` to call, by a catalogue built for this call. -/
def freshMethod (r : Registry) (settings : Settings) (t : TypeId) (name : String)
    (args : List Arg) : Except CallError Overload :=
  (r.catalogue settings t).bind fun cat => r.selectMethod settings.rules cat name args

end Registry

/-- What can be asked, of a resolver or of one of its finders. -/
inductive Request where
  | catalogue (t : TypeId)
  | constructor (t : TypeId) (args : List Arg)
  | method (t : TypeId) (name : String) (args : List Arg)
  | finder (t : TypeId)
  | finderCatalogue (f : Finder)
  | finderConstructor (f : Finder) (args : List Arg)
  | finderMethod (f : Finder) (name : String) (args : List Arg)
  | finderConstructorFor (f : Finder) (values : List Value)
  | finderMethodFor (f : Finder) (name : String) (values : List Value)

/-- What comes back. -/
inductive Response where
  | catalogue (found : Except CallError Catalogue)
  | overload (found : Except CallError Overload)
  | finder (found : Except CallError Finder)

/-- The response without any memory of earlier requests. -/
def Registry.respond (r : Registry) (settings : Settings) : Request → Response
  | .catalogue t => .catalogue (r.catalogue settings t)
  | .constructor t args => .overload (r.freshConstructor settings t args)
  | .method t name args => .overload (r.freshMethod settings t name args)
  | .finder t => .finder ((r.targetDecl t).map fun _ => ⟨t⟩)
  | .finderCatalogue f => .catalogue (r.catalogue settings f.target)
  | .finderConstructor f args => .overload (r.freshConstructor settings f.target args)
  | .finderMethod f name args => .overload (r.freshMethod settings f.target name args)
  | .finderConstructorFor f values =>
    .overload (r.freshConstructor settings f.target (values.map Value.arg))
  | .finderMethodFor f name values =>
    .overload (r.freshMethod settings f.target name (values.map Value.arg))

/-! ## Answers of a resolver -/

namespace Resolver

/-- The response of a resolver, and the resolver after it. -/
def serve (s : Resolver) : Request → Response × Resolver
  | .catalogue t => (s.catalogue t).map .catalogue id
  | .constructor t args => (s.resolveConstructor t args).map .overload id
  | .method t name args => (s.resolveMethod t name args).map .overload id
  | .finder t => (.finder (s.finder t), s)
  | .finderCatalogue f => (f.catalogue s).map .catalogue id
  | .finderConstructor f args => (f.resolveConstructor s args).map .overload id
  | .finderMethod f name args => (f.resolveMethod s name args).map .overload id
  | .finderConstructorFor f values => (f.resolveConstructorFor s values).map .overload id
  | .finderMethodFor f name values => (f.resolveMethodFor s name values).map .overload id

/-- The responses to requests in order, and the resolver after them. -/
def serveAll (s : Resolver) : List Request → List Response × Resolver
  | [] => ([], s)
  | request :: requests =>
    let (response, s) := s.serve request
    let (responses, s) := s.serveAll requests
    (response :: responses, s)

/-- The resolver is one over `r` under the settings, whatever it has been asked. -/
structure Serves (s : Resolver) (r : Registry) (settings : Settings) : Prop where
  registry_eq : s.registry = r
  settings_eq : s.settings = settings
  holds : s.cache.Holds r settings

variable {s : Resolver} {r : Registry} {settings : Settings}

theorem serves_of (r : Registry) (settings : Settings) : (of r settings).Serves r settings :=
  ⟨rfl, rfl, Cache.holds_empty r settings⟩

namespace Serves

theorem catalogue_fst (h : s.Serves r settings) (t : TypeId) :
    (s.catalogue t).1 = r.catalogue settings t := by
  obtain ⟨rfl, rfl, hholds⟩ := h
  exact hholds.fetch_fst t

theorem catalogue_snd (h : s.Serves r settings) (t : TypeId) :
    (s.catalogue t).2.Serves r settings := by
  obtain ⟨rfl, rfl, hholds⟩ := h
  exact ⟨rfl, rfl, hholds.fetch_snd t⟩

/-- What is chosen from the catalogue that a resolver comes up with is what is chosen from one built
for the purpose. -/
theorem bind_catalogue (h : s.Serves r settings) (t : TypeId)
    (select : Registry → Rules → Catalogue → Except CallError Overload) :
    ((s.catalogue t).1.bind fun cat =>
      select (s.catalogue t).2.registry (s.catalogue t).2.settings.rules cat) =
        (r.catalogue settings t).bind (select r settings.rules) := by
  have hs := h.catalogue_snd t
  rw [hs.registry_eq, hs.settings_eq, h.catalogue_fst]

theorem resolveConstructor (h : s.Serves r settings) (t : TypeId) (args : List Arg) :
    (s.resolveConstructor t args).1 = r.freshConstructor settings t args ∧
      (s.resolveConstructor t args).2.Serves r settings :=
  ⟨h.bind_catalogue t fun r rules cat => r.selectConstructor rules cat args, h.catalogue_snd t⟩

theorem resolveMethod (h : s.Serves r settings) (t : TypeId) (name : String) (args : List Arg) :
    (s.resolveMethod t name args).1 = r.freshMethod settings t name args ∧
      (s.resolveMethod t name args).2.Serves r settings :=
  ⟨h.bind_catalogue t fun r rules cat => r.selectMethod rules cat name args, h.catalogue_snd t⟩

/-- **One request** is answered as without a cache, and the resolver goes on as before. -/
theorem serve (h : s.Serves r settings) (request : Request) :
    (s.serve request).1 = r.respond settings request ∧
      (s.serve request).2.Serves r settings := by
  cases request with
  | catalogue t =>
    exact ⟨congrArg Response.catalogue (h.catalogue_fst t), h.catalogue_snd t⟩
  | constructor t args =>
    have ⟨hfound, hs⟩ := h.resolveConstructor t args
    exact ⟨congrArg Response.overload hfound, hs⟩
  | method t name args =>
    have ⟨hfound, hs⟩ := h.resolveMethod t name args
    exact ⟨congrArg Response.overload hfound, hs⟩
  | finder t =>
    refine ⟨?_, h⟩
    show Response.finder (s.finder t) = _
    rw [Resolver.finder, h.registry_eq]
    rfl
  | finderCatalogue f =>
    exact ⟨congrArg Response.catalogue (h.catalogue_fst f.target), h.catalogue_snd f.target⟩
  | finderConstructor f args =>
    have ⟨hfound, hs⟩ := h.resolveConstructor f.target args
    exact ⟨congrArg Response.overload hfound, hs⟩
  | finderMethod f name args =>
    have ⟨hfound, hs⟩ := h.resolveMethod f.target name args
    exact ⟨congrArg Response.overload hfound, hs⟩
  | finderConstructorFor f values =>
    have ⟨hfound, hs⟩ := h.resolveConstructor f.target (values.map Value.arg)
    exact ⟨congrArg Response.overload hfound, hs⟩
  | finderMethodFor f name values =>
    have ⟨hfound, hs⟩ := h.resolveMethod f.target name (values.map Value.arg)
    exact ⟨congrArg Response.overload hfound, hs⟩

theorem serveAll (h : s.Serves r settings) (requests : List Request) :
    (s.serveAll requests).1 = requests.map (r.respond settings) ∧
      (s.serveAll requests).2.Serves r settings := by
  induction requests generalizing s with
  | nil => exact ⟨rfl, h⟩
  | cons request requests ih =>
    have ⟨hresponse, hs⟩ := h.serve request
    have ⟨hresponses, hs'⟩ := ih hs
    refine ⟨?_, hs'⟩
    show (s.serve request).1 :: ((s.serve request).2.serveAll requests).1 = _
    rw [hresponse, hresponses, List.map_cons]

end Serves

/-- **Nobody can tell that catalogues are kept.**  After any history of requests, whether these
succeeded or not, a resolver gives for the next one what building the catalogue anew and choosing
from it gives, failures to build included; and so it did all along the history. -/
theorem serveAll_of (r : Registry) (settings : Settings) (history : List Request) :
    ((of r settings).serveAll history).1 = history.map (r.respond settings) ∧
      let s := ((of r settings).serveAll history).2
      (∀ t, (s.catalogue t).1 = r.catalogue settings t) ∧
        (∀ t args, (s.resolveConstructor t args).1 =
          (r.catalogue settings t).bind fun cat =>
            r.selectConstructor settings.rules cat args) ∧
        ∀ t name args, (s.resolveMethod t name args).1 =
          (r.catalogue settings t).bind fun cat =>
            r.selectMethod settings.rules cat name args := by
  obtain ⟨hresponses, hs⟩ := (serves_of r settings).serveAll history
  refine ⟨hresponses, hs.catalogue_fst, fun t args => ?_, fun t name args => ?_⟩
  · exact (hs.resolveConstructor t args).1
  · exact (hs.resolveMethod t name args).1

end Resolver
end CallResolution
