/-
# Resolvers

A resolver answers calls against one registry under fixed settings and keeps the
catalogues it has built.  Each call gives its answer and the resolver after it.  A
finder is a target that has been found to have a catalogue; two finders are equal when
their targets are.
-/

import CallResolution.Cache
import CallResolution.Selection

namespace CallResolution

structure Resolver where
  registry : Registry
  settings : Settings
  cache : Cache

namespace Resolver

/-- A resolver that has not built anything yet. -/
def of (r : Registry) (settings : Settings) : Resolver := ⟨r, settings, ∅⟩

/-- The catalogue of `t`. -/
def catalogue (s : Resolver) (t : TypeId) : Except CallError Catalogue × Resolver :=
  let (found, cache) := s.cache.fetch s.registry s.settings t
  (found, { s with cache := cache })

/-- The constructor of `t` to call. -/
def resolveConstructor (s : Resolver) (t : TypeId) (args : List Arg) :
    Except CallError Overload × Resolver :=
  let (found, s) := s.catalogue t
  (found.bind fun cat => s.registry.selectConstructor s.settings.rules cat args, s)

/-- The method of `t` called `name` to call. -/
def resolveMethod (s : Resolver) (t : TypeId) (name : String) (args : List Arg) :
    Except CallError Overload × Resolver :=
  let (found, s) := s.catalogue t
  (found.bind fun cat => s.registry.selectMethod s.settings.rules cat name args, s)

end Resolver

/-- A type whose members can be looked up. -/
structure Finder where
  target : TypeId
deriving DecidableEq

instance : Hashable Finder := ⟨fun f => f.target.bits⟩

/-- A finder for `t`, if `t` can have a catalogue.  Nothing is built yet. -/
def Resolver.finder (s : Resolver) (t : TypeId) : Except CallError Finder :=
  (s.registry.targetDecl t).map fun _ => ⟨t⟩

namespace Finder

/-- The catalogue of the target. -/
def catalogue (f : Finder) (s : Resolver) : Except CallError Catalogue × Resolver :=
  s.catalogue f.target

/-- The constructor to call with arguments of the given types. -/
def resolveConstructor (f : Finder) (s : Resolver) (args : List Arg) :
    Except CallError Overload × Resolver :=
  s.resolveConstructor f.target args

/-- The method to call with arguments of the given types. -/
def resolveMethod (f : Finder) (s : Resolver) (name : String) (args : List Arg) :
    Except CallError Overload × Resolver :=
  s.resolveMethod f.target name args

/-- The constructor to call with the given values. -/
def resolveConstructorFor (f : Finder) (s : Resolver) (values : List Value) :
    Except CallError Overload × Resolver :=
  f.resolveConstructor s (values.map Value.arg)

/-- The method to call with the given values. -/
def resolveMethodFor (f : Finder) (s : Resolver) (name : String) (values : List Value) :
    Except CallError Overload × Resolver :=
  f.resolveMethod s name (values.map Value.arg)

end Finder
end CallResolution
